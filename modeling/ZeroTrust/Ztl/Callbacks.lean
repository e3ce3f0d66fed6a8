import ZeroTrust.Ztl.Stdlib
import Mathlib.Logic.Relation

/-!
# What callbacks do

`Store.Change` lists every change that a callback other than `finding` and `plugin.run` can make to
the store. Those callbacks touch neither the variables nor the record of calls, throw nothing but
runtime errors, and fault in two ways only: without a receiver for a header method, and when a call of the
system never comes back.
-/

namespace ZeroTrust.Ztl

open Function (update)
open Relation (ReflTransGen)

/-- One change of the store. -/
inductive Store.Change : Store → Store → Prop
  | object {s : Store} (address : ℕ) (o : Object) (fresh : s.next ≤ address) :
    Change s { s with objects := update s.objects address o, next := address + 1 }
  | setMeta {s : Store} (run : ℕ) (f : PluginMeta → PluginMeta) :
    Change s (s.withRun run fun state => { state with pluginMeta := f state.pluginMeta })
  | setService {s : Store} (run : ℕ) (svc : Bytes) :
    Change s (s.withRun run fun state => { state with setService := svc })
  | setVersion {s : Store} (run : ℕ) (version : Bytes) :
    Change s (s.withRun run fun state => { state with setVersion := version })
  | setProduct {s : Store} (run : ℕ) (product : Bytes) :
    Change s (s.withRun run fun state => { state with setProduct := product })
  | claim {s : Store} (run : ℕ) (svc : Bytes) (named : Env) : Change s (s.claim run svc named)
  | kbSet {s : Store} (key : Bytes) (v : Value) : Change s { s with kb := s.kb.set key v }
  | event {s : Store} (e : NetEvent) : Change s { s with history := e :: s.history }

/-- Only the store changes, and only step by step. -/
structure Machine.Quiet (m m' : Machine) : Prop where
  globals : m'.globals = m.globals
  locals : m'.locals = m.locals
  trace : m'.trace = m.trace
  store : ReflTransGen Store.Change m.store m'.store

/-- Doing nothing is quiet. -/
theorem Machine.Quiet.refl (m : Machine) : m.Quiet m := ⟨rfl, rfl, rfl, .refl⟩

/-- Two quiet steps in a row are quiet. -/
theorem Machine.Quiet.trans (m m' m'' : Machine) (h : m.Quiet m') (h' : m'.Quiet m'') : m.Quiet m'' :=
  ⟨h'.globals.trans h.globals, h'.locals.trans h.locals, h'.trace.trans h.trace, h.store.trans h'.store⟩

/-- A runtime error. -/
def Exn.IsError : Exn → Prop
  | .runtimeError _ => True
  | .returned _ => False

/-- A computation that makes quiet changes, throws only errors and faults only in `F`. -/
abbrev Quietly {α : Type} (F : Fault → Prop) (p : Eval α) : Prop := Effect.Spec Machine.Quiet Exn.IsError F p

/-- When a plugin asks to run. -/
structure Filters where
  any : Bool := false
  service : Bytes := []
deriving DecidableEq

/-- The filters among the metadata. -/
def PluginMeta.filters (pm : PluginMeta) : Filters := ⟨pm.filterAny, pm.filterService⟩

/-- What a call of `Plugin.filter` is given. -/
structure FilterArguments where
  any : Option Value
  service : Option Value
deriving DecidableEq

/-- The filters after a call of `Plugin.filter`, which may fail. -/
def Filters.declare (f : Filters) (a : FilterArguments) : Filters where
  any := f.any || (a.any.map isTruthy).getD false
  service := match a.service with
    | some (.string s) => s
    | _ => f.service

/-- The arguments of a call that `Plugin.filter` looks at. -/
def filterArguments (named : Env) : FilterArguments := ⟨named (str "any"), named (str "service")⟩

/-- `Plugin.filter`, of any run. -/
def Native.isFilter : Native → Bool
  | .pluginFilter _ => true
  | _ => false

/-- Fields without functions, and methods that have nothing to do with `filter`. -/
def PlainParts (fields : List (Bytes × Value)) (methods : List (Bytes × Native)) : Prop :=
  (∀ x ∈ fields, ∀ fn, x.2 ≠ .function fn) ∧ ∀ x ∈ methods, x.1 ≠ str "filter" ∧ x.2.isFilter = false

/-- An object of this kind. -/
structure Object.Plain (o : Object) : Prop where
  fields : ∀ name v, o.fields name = some v → ∀ fn, v ≠ .function fn
  methods : ∀ name fn, o.methods name = some fn → name ≠ str "filter" ∧ fn.op.isFilter = false

/-- A change of the store that leaves the KB alone, what runs have detected and when plugins ask to run. -/
inductive Store.Mild : Store → Store → Prop
  | object {s : Store} (address : ℕ) (o : Object) (fresh : s.next ≤ address) (plain : o.Plain) :
    Mild s { s with objects := update s.objects address o, next := address + 1 }
  | setMeta {s : Store} (run : ℕ) (f : PluginMeta → PluginMeta) (same : ∀ pm, (f pm).filters = pm.filters) :
    Mild s (s.withRun run fun state => { state with pluginMeta := f state.pluginMeta })
  | event {s : Store} (e : NetEvent) : Mild s { s with history := e :: s.history }

/-- What a table with a new entry holds is the entry or was there before. -/
theorem eq_or_of_update {β : Type} {table : Bytes → Option β} {key name : Bytes} {v w : β}
    (h : update table key (some v) name = some w) : (name = key ∧ v = w) ∨ table name = some w := by
  by_cases hname : name = key
  · subst hname
    rw [Function.update_self] at h
    exact .inl ⟨rfl, Option.some.inj h⟩
  · rw [Function.update_of_ne hname] at h
    exact .inr h

/-- What a field table holds is one of its fields. -/
theorem fieldTable_mem {fields : List (Bytes × Value)} {name : Bytes} {v : Value}
    (h : fieldTable fields name = some v) : (name, v) ∈ fields := by
  induction fields with
  | nil => cases h
  | cons field fields ih =>
    obtain ⟨other, v'⟩ := field
    obtain ⟨rfl, rfl⟩ | hold := eq_or_of_update h
    · exact List.mem_cons_self
    · exact List.mem_cons_of_mem _ (ih hold)

/-- What a method table holds is one of its methods. -/
theorem methodTable_mem {id : ℕ} {methods : List (Bytes × Native)} {name : Bytes} {fn : NativeFn}
    (h : methodTable id methods name = some fn) : (name, fn.op) ∈ methods := by
  induction methods generalizing id with
  | nil => cases h
  | cons method methods ih =>
    obtain ⟨other, op⟩ := method
    obtain ⟨rfl, rfl⟩ | hold := eq_or_of_update h
    · exact List.mem_cons_self
    · exact List.mem_cons_of_mem _ (ih hold)

/-- Plain parts make a plain object. -/
theorem PlainParts.object {fields : List (Bytes × Value)} {methods : List (Bytes × Native)}
    (h : PlainParts fields methods) (typeName : Bytes) (id : ℕ) :
    Object.Plain { typeName := typeName, fields := fieldTable fields, methods := methodTable id methods } where
  fields _ _ hv := h.1 _ (fieldTable_mem hv)
  methods _ _ hfn := h.2 _ (methodTable_mem hfn)

/-- A mild change is a change. -/
theorem Store.Mild.change {s s' : Store} (h : s.Mild s') : s.Change s' := by
  cases h with
  | object address o fresh plain => exact .object address o fresh
  | setMeta run f same => exact .setMeta run f
  | event e => exact .event e

/-- A relation of machines that mild changes of the store respect. -/
structure Gentle (R : Machine → Machine → Prop) : Prop where
  refl : ∀ m, R m m
  trans : ∀ m m' m'', R m m' → R m' m'' → R m m''
  mild : ∀ (m : Machine) (s : Store), m.store.Mild s → R m { m with store := s }

/-- A computation that respects a relation and throws only errors. -/
abbrev Gently {α : Type} (R : Machine → Machine → Prop) (F : Fault → Prop) (p : Eval α) : Prop :=
  Effect.Spec R Exn.IsError F p

/-- Mild changes are quiet. -/
theorem gentle_quiet : Gentle Machine.Quiet where
  refl := Machine.Quiet.refl
  trans := Machine.Quiet.trans
  mild _ _ h := ⟨rfl, rfl, rfl, .single h.change⟩

section Rules

variable {α β : Type} {R : Machine → Machine → Prop} {F : Fault → Prop} (h : Gentle R)
include h

/-- A value changes nothing. -/
theorem gently_pure (a : α) : Gently R F (pure a) := Effect.spec_pure h.refl a

/-- Reading the store changes nothing. -/
theorem gently_readStore (f : Store → α) : Gently R F (readStore f) := Effect.spec_gets h.refl _

/-- An error changes nothing. -/
theorem gently_runtimeError (pos : Pos) (msg : Bytes) : Gently R F (runtimeError pos msg : Eval α) :=
  Effect.spec_throw h.refl trivial

/-- Throwing or answering a result changes nothing. -/
theorem gently_orThrow (x : Except RuntimeError α) : Gently R F (orThrow x) := by
  cases x with
  | ok a => exact gently_pure h a
  | error e => exact Effect.spec_throw h.refl trivial

/-- Gentle computations in a row are gentle. -/
theorem Gentle.bind {p : Eval α} {k : α → Eval β} (hp : Gently R F p) (hk : ∀ a, Gently R F (k a)) :
    Gently R F (p >>= k) := Effect.Spec.bind h.trans hp hk

/-- A mild change of the store is gentle. -/
theorem gently_changeStore {f : Store → Store} (hf : ∀ s, Store.Mild s (f s)) : Gently R F (changeStore f) :=
  Effect.spec_modify fun m => h.mild m _ (hf m.store)

/-- Reading the state of a run changes nothing. -/
theorem gently_readRun (run : ℕ) (f : RunState → α) : Gently R F (readRun run f) := gently_readStore h _

/-- Reading the KB changes nothing. -/
theorem gently_readKb (run : ℕ) (key : Bytes) : Gently R F (readKb run key) := gently_readStore h _

/-- A change of the metadata that leaves the filters is gentle. -/
theorem gently_changeMeta (run : ℕ) {f : PluginMeta → PluginMeta} (hf : ∀ pm, (f pm).filters = pm.filters) :
    Gently R F (changeMeta run f) := gently_changeStore h fun _ => .setMeta run f hf

/-- A network event is gentle. -/
theorem gently_perform (e : NetEvent) (answer : List NetEvent → α) : Gently R F (perform e answer) :=
  h.bind (gently_changeStore h fun _ => .event e) fun _ => gently_readStore h _

/-- Building a plain object is gentle. -/
theorem gently_newObject (typeName : Bytes) {fields : List (Bytes × Value)} {methods : List (Bytes × Native)}
    (hplain : PlainParts fields methods) : Gently R F (newObject typeName fields methods) := by
  intro m
  exact h.mild m _ (.object (m.store.next + methods.length) _ (Nat.le_add_right _ _) (hplain.object _ _))

/-- Building a header object is gentle. -/
theorem gently_makeHeaderObj (found : Bool) (value : Bytes) : Gently R F (makeHeaderObj found value) :=
  gently_newObject h _ (by simp +decide [PlainParts])

/-- Building a response object is gentle. -/
theorem gently_makeResponseObj (response : RawHttpResponse) : Gently R F (makeResponseObj response) :=
  gently_newObject h _ (by simp +decide [PlainParts, Native.isFilter])

/-- Building an HTTP object is gentle. -/
theorem gently_makeHttpObj (e : Endpoint) : Gently R F (makeHttpObj e) :=
  gently_newObject h _ (by simp +decide [PlainParts, Native.isFilter])

/-- Building a TLS object is gentle. -/
theorem gently_makeTlsObj (e : Endpoint) : Gently R F (makeTlsObj e) :=
  gently_newObject h _ (by simp +decide [PlainParts, Native.isFilter])

/-- Building a handshake report is gentle. -/
theorem gently_makeTlsReportObj (report : TlsHandshakeReport) : Gently R F (makeTlsReportObj report) :=
  gently_newObject h _ (by simp [PlainParts])

/-- Building a CVE result is gentle. -/
theorem gently_makeCveResult (r : VerificationResult) : Gently R F (makeCveResult r) :=
  gently_newObject h _ (by simp [PlainParts])

end Rules

section Callbacks

variable {R : Machine → Machine → Prop} {F : Fault → Prop} (h : Gentle R) (w : World) (run : ℕ) (ctx : CallContext)
include h

/-- The setters of the metadata leave the filters. -/
theorem gently_pluginSetter (what : Bytes) {set : PluginMeta → Bytes → PluginMeta}
    (hset : ∀ pm s, (set pm s).filters = pm.filters) : Gently R F (pluginSetter run what set ctx) := by
  unfold pluginSetter
  split
  · exact gently_pure h _
  · exact h.bind (gently_orThrow h _) fun s => h.bind (gently_changeMeta h run fun pm => hset pm s) fun _ =>
      gently_pure h _

/-- `kb.get` is gentle. -/
theorem gently_kbGet : Gently R F (kbGet run ctx) :=
  h.bind (gently_orThrow h _) fun _ => h.bind (gently_readKb h run _) fun _ => gently_pure h _

/-- `kb.has` is gentle. -/
theorem gently_kbHas : Gently R F (kbHas run ctx) :=
  h.bind (gently_orThrow h _) fun _ => h.bind (gently_readKb h run _) fun _ => gently_pure h _

/-- `kb.get_scoped` is gentle. -/
theorem gently_kbGetScoped : Gently R F (kbGetScoped run ctx) := by
  unfold kbGetScoped
  split
  · exact h.bind (gently_orThrow h _) fun _ => h.bind (gently_readKb h run _) fun _ => gently_pure h _
  · exact gently_runtimeError h _ _

/-- `kb.has_scoped` is gentle. -/
theorem gently_kbHasScoped : Gently R F (kbHasScoped run ctx) := by
  unfold kbHasScoped
  split
  · exact h.bind (gently_orThrow h _) fun _ => h.bind (gently_readKb h run _) fun _ => gently_pure h _
  · exact gently_runtimeError h _ _

/-- `cve.check` is gentle. -/
theorem gently_cveCheckFn : Gently R F (cveCheckFn w ctx) :=
  h.bind (gently_orThrow h _) fun _ => h.bind (gently_orThrow h _) fun _ => h.bind (gently_orThrow h _) fun _ =>
    gently_makeCveResult h _

/-- `cve.verify` is gentle. -/
theorem gently_cveVerifyFn : Gently R F (cveVerifyFn w ctx) := by
  unfold cveVerifyFn
  split
  · exact gently_runtimeError h _ _
  · refine h.bind (gently_readStore h _) fun o => ?_
    split
    · exact h.bind (gently_orThrow h _) fun _ => h.bind (gently_orThrow h _) fun _ =>
        h.bind (gently_orThrow h _) fun _ => gently_makeCveResult h _
    · exact gently_runtimeError h _ _
  · exact gently_runtimeError h _ _

/-- `cve.lookup` is gentle. -/
theorem gently_cveLookupFn : Gently R F (cveLookupFn w ctx) :=
  h.bind (gently_orThrow h _) fun _ => h.bind (gently_orThrow h _) fun _ => h.bind (gently_orThrow h _) fun _ =>
    h.bind (gently_orThrow h _) fun _ => gently_pure h _

/-- Connecting is gentle. -/
theorem gently_tcpConnect (host : Bytes) (port timeoutMs : ℤ) : Gently R F (tcpConnect w host port timeoutMs) :=
  h.bind (gently_readStore h _) fun _ => h.bind (gently_perform h _ _) fun _ => gently_pure h _

/-- Building a TCP object is gentle. -/
theorem gently_makeTcpObj (e : Endpoint) : Gently R F (makeTcpObj w e) :=
  h.bind (gently_tcpConnect h w _ _ _) fun _ =>
    gently_newObject h _ (by simp +decide [PlainParts, Native.isFilter])

/-- `net::tcp` is gentle. -/
theorem gently_netTcp : Gently R F (netTcp w ctx) := by
  refine h.bind (gently_orThrow h _) fun e => ?_
  split
  · exact gently_runtimeError h _ _
  · exact gently_makeTcpObj h w e

/-- `net::http` is gentle. -/
theorem gently_netHttp : Gently R F (netHttp ctx) := by
  refine h.bind (gently_orThrow h _) fun e => ?_
  split
  · exact gently_runtimeError h _ _
  · exact gently_makeHttpObj h e

/-- `net::tls` is gentle. -/
theorem gently_netTls : Gently R F (netTls ctx) := by
  refine h.bind (gently_orThrow h _) fun e => ?_
  split
  · exact gently_runtimeError h _ _
  · exact gently_makeTlsObj h e

/-- `header` of a response is gentle. -/
theorem gently_responseHeader (response : RawHttpResponse) : Gently R F (responseHeader response ctx) := by
  refine h.bind (gently_orThrow h _) fun name => ?_
  split
  · exact gently_makeHeaderObj h _ _
  · exact gently_makeHeaderObj h _ _

end Callbacks

section Faults

variable {R : Machine → Machine → Prop} (h : Gentle R) (w : World) (ctx : CallContext)
include h

/-- Sending is gentle where it ends. -/
theorem gently_tcpSend (tcp : TcpState) (data : Bytes) : Gently R (fun _ => True) (tcpSend w tcp data) := by
  refine h.bind (gently_perform h _ _) fun answer => ?_
  cases answer with
  | none => exact Effect.spec_fault h.refl trivial
  | some sent => exact gently_pure h _

/-- `send` is gentle where it ends. -/
theorem gently_tcpSendFn (tcp : TcpState) : Gently R (fun _ => True) (tcpSendFn w tcp ctx) := by
  refine h.bind (gently_orThrow h _) fun data => ?_
  split
  · exact h.bind (gently_tcpSend h w tcp data) fun _ => gently_pure h _
  · exact gently_pure h _

/-- Receiving is gentle where it ends. -/
theorem gently_tcpReceive (tcp : TcpState) (timeoutMs : ℤ) :
    Gently R (fun _ => True) (tcpReceive w tcp timeoutMs) := by
  refine h.bind (gently_perform h _ _) fun answer => ?_
  cases answer with
  | some data => exact gently_pure h _
  | none =>
    change Gently R _ (if timeoutMs < 0 then Effect.fault .noAnswer else pure [])
    split
    · exact Effect.spec_fault h.refl trivial
    · exact gently_pure h _

/-- `recv` and `recv_banner` are gentle where they end. -/
theorem gently_tcpRecvFn (tcp : TcpState) : Gently R (fun _ => True) (tcpRecvFn w tcp ctx) := by
  refine h.bind (gently_orThrow h _) fun timeoutMs => ?_
  split
  · exact h.bind (gently_tcpReceive h w tcp _) fun _ => gently_pure h _
  · exact gently_pure h _

/-- Reading a response chunk by chunk is gentle where it ends. -/
theorem gently_receiveChunks (tcp : TcpState) (timeoutMs : ℤ) (budget : ℕ) (raw : Bytes) :
    Gently R (fun _ => True) (receiveChunks w tcp timeoutMs budget raw) := by
  induction budget generalizing raw with
  | zero => exact gently_pure h _
  | succ budget ih =>
    refine h.bind (gently_tcpReceive h w tcp timeoutMs) fun chunk => ?_
    split
    · exact gently_pure h _
    · split
      · exact gently_pure h _
      · exact ih _

/-- A TLS handshake is gentle where it ends. -/
theorem gently_tlsHandshake (e : Endpoint) : Gently R (fun _ => True) (tlsHandshake w e) := by
  refine h.bind (gently_perform h _ _) fun answer => ?_
  cases answer with
  | some report => exact gently_pure h _
  | none => exact Effect.spec_fault h.refl trivial

/-- `request` is gentle where it ends. -/
theorem gently_httpRequestFn (e : Endpoint) : Gently R (fun _ => True) (httpRequestFn w e ctx) := by
  refine h.bind (gently_orThrow h _) fun request => h.bind (gently_tcpConnect h w _ _ _) fun tcp => ?_
  split
  · refine h.bind (gently_tcpSend h w tcp request) fun sent => ?_
    split
    · refine h.bind (gently_receiveChunks h w tcp _ _ _) fun raw => ?_
      split
      · exact gently_pure h _
      · exact gently_makeResponseObj h _
    · exact gently_pure h _
  · exact gently_pure h _

/-- `exists` and `value` of a header are gentle where they end. -/
theorem gently_headerField (name : Bytes) : Gently R (fun _ => True) (headerField name ctx) := by
  unfold headerField
  split
  · exact gently_readStore h _
  · exact Effect.spec_fault h.refl trivial

end Faults

section Writes

variable {R : Machine → Machine → Prop} {F : Fault → Prop} (h : Gentle R) (w : World) (run : ℕ) (ctx : CallContext)

/-- A write of the store that the relation allows is gentle. -/
theorem gently_write {f : Store → Store} (hf : ∀ m : Machine, R m { m with store := f m.store }) :
    Gently R F (changeStore f) := Effect.spec_modify hf

include h

/-- `plugin.filter` is gentle for a relation that allows any change of the metadata. -/
theorem gently_pluginFilter
    (hmeta : ∀ (f : PluginMeta → PluginMeta) (m : Machine), R m { m with
      store := m.store.withRun run fun state => { state with pluginMeta := f state.pluginMeta } }) :
    Gently R F (pluginFilter run ctx) := by
  have hchange : ∀ f, Gently R F (changeMeta run f) := by
    intro f
    rw [changeMeta, changeRun]
    exact gently_write (hmeta f)
  apply h.bind (hchange _)
  intro _
  split
  · exact gently_pure h _
  · exact h.bind (gently_orThrow h _) fun _ => h.bind (hchange _) fun _ => gently_pure h _

/-- `plugin.set_service` is gentle for a relation that allows its claim and its keys of the KB. -/
theorem gently_pluginSetService
    (hservice : ∀ svc (m : Machine), R m { m with
      store := m.store.withRun run fun state => { state with setService := svc } })
    (hversion : ∀ version (m : Machine), R m { m with
      store := m.store.withRun run fun state => { state with setVersion := version } })
    (hproduct : ∀ product (m : Machine), R m { m with
      store := m.store.withRun run fun state => { state with setProduct := product } })
    (hclaim : ∀ svc (m : Machine), R m { m with store := m.store.claim run svc ctx.named }) :
    Gently R F (pluginSetService run ctx) := by
  refine h.bind (gently_orThrow h _) fun svc => ?_
  refine h.bind (gently_write (hservice svc)) fun _ => ?_
  refine h.bind (gently_readRun h run _) fun _ => h.bind (gently_orThrow h _) fun version => ?_
  refine h.bind (gently_write (hversion version)) fun _ => ?_
  refine h.bind (gently_readRun h run _) fun _ => h.bind (gently_orThrow h _) fun product => ?_
  refine h.bind (gently_write (hproduct product)) fun _ => ?_
  exact h.bind (gently_write (hclaim svc)) fun _ => gently_pure h _

/-- The common end of `Kb.set` and `Kb.set_scoped`. -/
theorem gently_kbWrite {key : Bytes} {v : Value}
    (hset : ∀ m : Machine, R m { m with store := { m.store with kb := m.store.kb.set key v } }) :
    Gently R F (do
      if ← readRun run (·.hasKb) then changeStore fun s => { s with kb := s.kb.set key v }
      return Value.null) := by
  refine h.bind (gently_readRun h run _) fun hasKb => ?_
  cases hasKb with
  | false => exact gently_pure h _
  | true => exact h.bind (gently_write hset) fun _ => gently_pure h _

/-- `kb.set` is gentle for a relation that allows its key of the KB. -/
theorem gently_kbSet
    (hset : ∀ key v rest, ctx.positional = .string key :: v :: rest →
      ∀ m : Machine, R m { m with store := { m.store with kb := m.store.kb.set key v } }) :
    Gently R F (kbSet run ctx) := by
  rw [kbSet]
  split
  · next key v rest hpositional =>
    cases key with
    | string key => exact gently_kbWrite h run (hset key v rest hpositional)
    | _ => exact gently_runtimeError h _ _
  · exact gently_runtimeError h _ _

/-- `kb.set_scoped` is gentle for a relation that allows its key of the KB. -/
theorem gently_kbSetScoped
    (hset : ∀ scope key v rest name, ctx.positional = scope :: key :: v :: rest →
      scopedKey scope key ctx.pos = .ok name →
        ∀ m : Machine, R m { m with store := { m.store with kb := m.store.kb.set name v } }) :
    Gently R F (kbSetScoped run ctx) := by
  rw [kbSetScoped]
  split
  · next scope key v rest hpositional =>
    cases hname : scopedKey scope key ctx.pos with
    | error e => exact gently_orThrow h (.error e)
    | ok name => exact gently_kbWrite h run (hset scope key v rest name hpositional hname)
  · exact gently_runtimeError h _ _

/-- `finding` is gentle for a relation that allows one more finding. -/
theorem gently_findingFn
    (hfinding : ∀ f (m : Machine), R m { m with
      store := m.store.withRun run fun state => { state with findings := state.findings ++ [f] } }) :
    Gently R F (findingFn w run ctx) := by
  refine h.bind (gently_readStore h _) fun _ => h.bind (gently_orThrow h _) fun f => ?_
  refine h.bind (gently_perform h _ _) fun now => ?_
  exact h.bind (gently_write (hfinding { f with timestamp := now })) fun _ => gently_pure h _

end Writes

section Quiet

variable {α β : Type} {F : Fault → Prop}

/-- A value is quiet. -/
theorem quietly_pure (a : α) : Quietly F (pure a) := gently_pure gentle_quiet a

/-- Reading the store is quiet. -/
theorem quietly_readStore (f : Store → α) : Quietly F (readStore f) := gently_readStore gentle_quiet f

/-- An error is quiet. -/
theorem quietly_runtimeError (pos : Pos) (msg : Bytes) : Quietly F (runtimeError pos msg : Eval α) :=
  gently_runtimeError gentle_quiet pos msg

/-- Throwing or answering a result is quiet. -/
theorem quietly_orThrow (x : Except RuntimeError α) : Quietly F (orThrow x) := gently_orThrow gentle_quiet x

/-- Quiet computations in a row are quiet. -/
theorem Quietly.bind {p : Eval α} {k : α → Eval β} (hp : Quietly F p) (hk : ∀ a, Quietly F (k a)) :
    Quietly F (p >>= k) := gentle_quiet.bind hp hk

/-- Reading the state of a run is quiet. -/
theorem quietly_readRun (run : ℕ) (f : RunState → α) : Quietly F (readRun run f) :=
  gently_readRun gentle_quiet run f

/-- One change of the store is quiet. -/
theorem Store.Change.quiet {m : Machine} {s : Store} (h : m.store.Change s) : m.Quiet { m with store := s } :=
  ⟨rfl, rfl, rfl, .single h⟩

end Quiet

/-- Two changes of one run are one change. -/
theorem Store.withRun_withRun (s : Store) (run : ℕ) (f g : RunState → RunState) :
    (s.withRun run f).withRun run g = s.withRun run fun state => g (f state) := by
  simp [Store.withRun]

/-- `Plugin.filter` changes the filters of its run, even when it fails. -/
theorem pluginFilter_state (run : ℕ) (ctx : CallContext) (m : Machine) : ∃ f : PluginMeta → PluginMeta,
    (∀ pm, (f pm).filters = pm.filters.declare (filterArguments ctx.named)) ∧
    (pluginFilter run ctx m).state =
      { m with store := m.store.withRun run fun state => { state with pluginMeta := f state.pluginMeta } } := by
  -- The first of the two writes happens in any case.
  let setAny (pm : PluginMeta) : PluginMeta :=
    { pm with filterAny := pm.filterAny || ((ctx.named (str "any")).map isTruthy).getD false }
  by_cases hservice : ∃ s, ctx.named (str "service") = some (.string s)
  · obtain ⟨s, hs⟩ := hservice
    refine ⟨fun pm => { setAny pm with filterService := s }, fun pm => ?_, ?_⟩
    · rw [Filters.declare, filterArguments, hs]
      rfl
    · rw [pluginFilter, hs]
      exact congrArg (fun store => { m with store := store }) (m.store.withRun_withRun run
        (fun state => { state with pluginMeta := setAny state.pluginMeta })
        fun state => { state with pluginMeta := { state.pluginMeta with filterService := s } })
  · refine ⟨setAny, fun pm => ?_, ?_⟩
    · cases hv : ctx.named (str "service") with
      | none =>
        rw [Filters.declare, filterArguments, hv]
        rfl
      | some v =>
        rw [Filters.declare, filterArguments, hv]
        cases v with
        | string s => exact absurd ⟨s, hv⟩ hservice
        | _ => rfl
    · cases hv : ctx.named (str "service") with
      | none =>
        rw [pluginFilter, hv]
        rfl
      | some v =>
        rw [pluginFilter, hv]
        cases v with
        | string s => exact absurd ⟨s, hv⟩ hservice
        | _ => rfl

/-- The callbacks that make quiet changes. -/
def Native.IsQuiet : Native → Prop
  | .pluginRun _ | .finding _ => False
  | _ => True

/-- The callbacks that a run need not survive. -/
def Native.MayFault : Native → Prop
  | .headerExists | .headerValue | .tcpSend _ | .tcpRecv _ | .tcpRecvBanner _ | .httpRequest _ | .tlsHandshake _ => True
  | _ => False

/-- The callbacks that make mild changes. -/
def Native.IsGentle : Native → Prop
  | .pluginRun _ | .finding _ | .pluginFilter _ | .pluginSetService _ | .kbSet _ | .kbSetScoped _ => False
  | _ => True

/-- The gentle callbacks respect every relation that mild changes respect. -/
theorem gently_callNative {R : Machine → Machine → Prop} (h : Gentle R) (w : World) {op : Native}
    (hop : op.IsGentle) (ctx : CallContext) (block : Option (Eval Unit)) :
    Gently R (fun _ => op.MayFault) (callNative w op ctx block) := by
  cases op with
  | pluginRun run => exact hop.elim
  | finding run => exact hop.elim
  | pluginName run => exact gently_pluginSetter h run ctx _ fun _ _ => rfl
  | pluginDescription run => exact gently_pluginSetter h run ctx _ fun _ _ => rfl
  | pluginCategory run => exact gently_pluginSetter h run ctx _ fun _ _ => rfl
  | pluginFilter run => exact hop.elim
  | pluginSetService run => exact hop.elim
  | kbSet run => exact hop.elim
  | kbGet run => exact gently_kbGet h run ctx
  | kbHas run => exact gently_kbHas h run ctx
  | kbSetScoped run => exact hop.elim
  | kbGetScoped run => exact gently_kbGetScoped h run ctx
  | kbHasScoped run => exact gently_kbHasScoped h run ctx
  | cveCheck => exact gently_cveCheckFn h w ctx
  | cveVerify => exact gently_cveVerifyFn h w ctx
  | cveLookup => exact gently_cveLookupFn h w ctx
  | netTcp => exact gently_netTcp h w ctx
  | netHttp => exact gently_netHttp h ctx
  | netTls => exact gently_netTls h ctx
  | tcpConnected tcp => exact gently_pure h _
  | tcpSend tcp => exact gently_tcpSendFn h w ctx tcp
  | tcpRecv tcp => exact gently_tcpRecvFn h w ctx tcp
  | tcpRecvBanner tcp => exact gently_tcpRecvFn h w ctx tcp
  | httpRequest http => exact gently_httpRequestFn h w ctx http
  | tlsHandshake tls => exact h.bind (gently_tlsHandshake h w tls) fun _ => gently_makeTlsReportObj h _
  | headerExists => exact gently_headerField h ctx _
  | headerValue => exact gently_headerField h ctx _
  | responseStatus response => exact gently_pure h _
  | responseBody response => exact gently_pure h _
  | responseHeaders response => exact gently_pure h _
  | responseHeader response => exact gently_responseHeader h ctx response

/-- What the callbacks have in common. -/
theorem quietly_callNative (w : World) {op : Native} (h : op.IsQuiet) (ctx : CallContext)
    (block : Option (Eval Unit)) : Quietly (fun _ => op.MayFault) (callNative w op ctx block) := by
  by_cases hgentle : op.IsGentle
  · exact gently_callNative gentle_quiet w hgentle ctx block
  · cases op with
    | pluginFilter run => exact gently_pluginFilter gentle_quiet run ctx fun f _ => Store.Change.quiet (.setMeta run f)
    | pluginSetService run =>
      apply gently_pluginSetService gentle_quiet
      · exact fun svc _ => Store.Change.quiet (.setService run svc)
      · exact fun version _ => Store.Change.quiet (.setVersion run version)
      · exact fun product _ => Store.Change.quiet (.setProduct run product)
      · exact fun svc _ => Store.Change.quiet (.claim run svc ctx.named)
    | kbSet run => exact gently_kbSet gentle_quiet run ctx fun key v _ _ _ => Store.Change.quiet (.kbSet key v)
    | kbSetScoped run =>
      exact gently_kbSetScoped gentle_quiet run ctx fun _ _ v _ name _ _ _ => Store.Change.quiet (.kbSet name v)
    | pluginRun run => exact h.elim
    | finding run => exact h.elim
    | _ => exact absurd trivial hgentle

/-- A value that is no function. -/
def Value.IsData (v : Value) : Prop := ∀ fn, v ≠ .function fn

/-- A callback that returns no functions. -/
abbrev ReturnsData (p : Eval Value) : Prop := Effect.Returns Value.IsData p

section Results

open Effect (returns_bind returns_pure returns_throw returns_fault)

/-- Building an object answers data. -/
theorem returnsData_newObject (typeName : Bytes) (fields : List (Bytes × Value)) (methods : List (Bytes × Native)) :
    ReturnsData (newObject typeName fields methods) :=
  returns_bind (fun _ => returns_bind (fun _ => returns_pure nofun) _) _

/-- An error answers no function. -/
theorem returnsData_runtimeError (pos : Pos) (msg : Bytes) : ReturnsData (runtimeError pos msg) := returns_throw _

/-- The setters of the metadata answer data. -/
theorem returnsData_pluginSetter (run : ℕ) (what : Bytes) (set : PluginMeta → Bytes → PluginMeta)
    (ctx : CallContext) : ReturnsData (pluginSetter run what set ctx) := by
  rw [pluginSetter]
  split
  · exact returns_pure nofun
  · exact returns_bind (fun _ => returns_bind (fun _ => returns_pure nofun) _) _

/-- `plugin.filter` answers data. -/
theorem returnsData_pluginFilter (run : ℕ) (ctx : CallContext) : ReturnsData (pluginFilter run ctx) := by
  apply returns_bind
  intro _
  split
  · exact returns_pure nofun
  · exact returns_bind (fun _ => returns_bind (fun _ => returns_pure nofun) _) _

/-- `plugin.set_service` answers data. -/
theorem returnsData_pluginSetService (run : ℕ) (ctx : CallContext) : ReturnsData (pluginSetService run ctx) := by
  iterate 9 refine returns_bind (fun _ => ?_) _
  exact returns_pure nofun

/-- `plugin.run` answers data. -/
theorem returnsData_pluginRun (run : ℕ) (ctx : CallContext) (block : Option (Eval Unit)) :
    ReturnsData (pluginRun run ctx block) := by
  cases block with
  | none => exact returnsData_runtimeError _ _
  | some body =>
    apply returns_bind
    intro runs
    cases runs with
    | false => exact returns_pure nofun
    | true => exact returns_bind (fun _ => returns_pure nofun) _

/-- `finding` answers data. -/
theorem returnsData_findingFn (w : World) (run : ℕ) (ctx : CallContext) : ReturnsData (findingFn w run ctx) := by
  iterate 4 refine returns_bind (fun _ => ?_) _
  exact returns_pure nofun

/-- The common end of `Kb.set` and `Kb.set_scoped`. -/
theorem returnsData_kbWrite (run : ℕ) (key : Bytes) (v : Value) :
    ReturnsData (do
      if ← readRun run (·.hasKb) then changeStore fun s => { s with kb := s.kb.set key v }
      return Value.null) := by
  apply returns_bind
  intro hasKb
  cases hasKb with
  | false => exact returns_pure nofun
  | true => exact returns_bind (fun _ => returns_pure nofun) _

/-- `kb.set` answers data. -/
theorem returnsData_kbSet (run : ℕ) (ctx : CallContext) : ReturnsData (kbSet run ctx) := by
  rw [kbSet]
  split
  · exact returns_bind (fun _ => returnsData_kbWrite run _ _) _
  · exact returnsData_runtimeError _ _

/-- `kb.set_scoped` answers data. -/
theorem returnsData_kbSetScoped (run : ℕ) (ctx : CallContext) : ReturnsData (kbSetScoped run ctx) := by
  rw [kbSetScoped]
  split
  · exact returns_bind (fun _ => returnsData_kbWrite run _ _) _
  · exact returnsData_runtimeError _ _

/-- `kb.has_scoped` answers data. -/
theorem returnsData_kbHasScoped (run : ℕ) (ctx : CallContext) : ReturnsData (kbHasScoped run ctx) := by
  rw [kbHasScoped]
  split
  · exact returns_bind (fun _ => returns_bind (fun _ => returns_pure nofun) _) _
  · exact returnsData_runtimeError _ _

/-- `cve.check` answers data. -/
theorem returnsData_cveCheckFn (w : World) (ctx : CallContext) : ReturnsData (cveCheckFn w ctx) := by
  iterate 3 refine returns_bind (fun _ => ?_) _
  exact returnsData_newObject _ _ _

/-- `cve.verify` answers data. -/
theorem returnsData_cveVerifyFn (w : World) (ctx : CallContext) : ReturnsData (cveVerifyFn w ctx) := by
  rw [cveVerifyFn]
  split
  · exact returnsData_runtimeError _ _
  · apply returns_bind
    intro o
    split
    · iterate 3 refine returns_bind (fun _ => ?_) _
      exact returnsData_newObject _ _ _
    · exact returnsData_runtimeError _ _
  · exact returnsData_runtimeError _ _

/-- `cve.lookup` answers data. -/
theorem returnsData_cveLookupFn (w : World) (ctx : CallContext) : ReturnsData (cveLookupFn w ctx) := by
  iterate 4 refine returns_bind (fun _ => ?_) _
  exact returns_pure nofun

/-- `net::tcp` answers data. -/
theorem returnsData_netTcp (w : World) (ctx : CallContext) : ReturnsData (netTcp w ctx) := by
  apply returns_bind
  intro e
  split
  · exact returnsData_runtimeError _ _
  · exact returns_bind (fun _ => returnsData_newObject _ _ _) _

/-- `net::http` answers data. -/
theorem returnsData_netHttp (ctx : CallContext) : ReturnsData (netHttp ctx) := by
  apply returns_bind
  intro e
  split
  · exact returnsData_runtimeError _ _
  · exact returnsData_newObject _ _ _

/-- `net::tls` answers data. -/
theorem returnsData_netTls (ctx : CallContext) : ReturnsData (netTls ctx) := by
  apply returns_bind
  intro e
  split
  · exact returnsData_runtimeError _ _
  · exact returnsData_newObject _ _ _

/-- `send` answers data. -/
theorem returnsData_tcpSendFn (w : World) (tcp : TcpState) (ctx : CallContext) : ReturnsData (tcpSendFn w tcp ctx) := by
  apply returns_bind
  intro data
  split
  · exact returns_bind (fun _ => returns_pure nofun) _
  · exact returns_pure nofun

/-- `recv` and `recv_banner` answer data. -/
theorem returnsData_tcpRecvFn (w : World) (tcp : TcpState) (ctx : CallContext) : ReturnsData (tcpRecvFn w tcp ctx) := by
  apply returns_bind
  intro timeoutMs
  split
  · exact returns_bind (fun _ => returns_pure nofun) _
  · exact returns_pure nofun

/-- `request` answers data. -/
theorem returnsData_httpRequestFn (w : World) (e : Endpoint) (ctx : CallContext) :
    ReturnsData (httpRequestFn w e ctx) := by
  apply returns_bind
  intro request
  apply returns_bind
  intro tcp
  split
  · apply returns_bind
    intro sent
    split
    · apply returns_bind
      intro raw
      split
      · exact returns_pure nofun
      · exact returnsData_newObject _ _ _
    · exact returns_pure nofun
  · exact returns_pure nofun

/-- `header` of a response answers data. -/
theorem returnsData_responseHeader (response : RawHttpResponse) (ctx : CallContext) :
    ReturnsData (responseHeader response ctx) := by
  apply returns_bind
  intro name
  split
  · exact returnsData_newObject _ _ _
  · exact returnsData_newObject _ _ _

/-- The callbacks that return a value of the KB or of a field. -/
def Native.Reads : Native → Prop
  | .kbGet _ | .kbGetScoped _ | .headerExists | .headerValue => True
  | _ => False

/-- The others return no functions. -/
theorem returnsData_callNative (w : World) {op : Native} (h : ¬op.Reads) (ctx : CallContext)
    (block : Option (Eval Unit)) : ReturnsData (callNative w op ctx block) := by
  cases op with
  | pluginName run => exact returnsData_pluginSetter run _ _ ctx
  | pluginDescription run => exact returnsData_pluginSetter run _ _ ctx
  | pluginCategory run => exact returnsData_pluginSetter run _ _ ctx
  | pluginFilter run => exact returnsData_pluginFilter run ctx
  | pluginSetService run => exact returnsData_pluginSetService run ctx
  | pluginRun run => exact returnsData_pluginRun run ctx block
  | finding run => exact returnsData_findingFn w run ctx
  | kbSet run => exact returnsData_kbSet run ctx
  | kbGet run => exact absurd trivial h
  | kbHas run => exact returns_bind (fun _ => returns_bind (fun _ => returns_pure nofun) _) _
  | kbSetScoped run => exact returnsData_kbSetScoped run ctx
  | kbGetScoped run => exact absurd trivial h
  | kbHasScoped run => exact returnsData_kbHasScoped run ctx
  | cveCheck => exact returnsData_cveCheckFn w ctx
  | cveVerify => exact returnsData_cveVerifyFn w ctx
  | cveLookup => exact returnsData_cveLookupFn w ctx
  | netTcp => exact returnsData_netTcp w ctx
  | netHttp => exact returnsData_netHttp ctx
  | netTls => exact returnsData_netTls ctx
  | tcpConnected tcp => exact returns_pure nofun
  | tcpSend tcp => exact returnsData_tcpSendFn w tcp ctx
  | tcpRecv tcp => exact returnsData_tcpRecvFn w tcp ctx
  | tcpRecvBanner tcp => exact returnsData_tcpRecvFn w tcp ctx
  | httpRequest http => exact returnsData_httpRequestFn w http ctx
  | tlsHandshake tls => exact returns_bind (fun _ => returnsData_newObject _ _ _) _
  | headerExists => exact absurd trivial h
  | headerValue => exact absurd trivial h
  | responseStatus response => exact returns_pure nofun
  | responseBody response => exact returns_pure nofun
  | responseHeaders response => exact returns_pure nofun
  | responseHeader response => exact returnsData_responseHeader response ctx

end Results

/-- A wait on a connection comes to an end: the timeout ends it, or something arrives. -/
def waitEnds (w : World) (tcp : TcpState) (timeoutMs : ℤ) (history : List NetEvent) : Bool :=
  decide (0 ≤ timeoutMs) || (w.net.receive (.receive tcp.connection timeoutMs :: history)).isSome

/-- What such a wait reads: nothing when the timeout ends it. -/
def arrived (w : World) (tcp : TcpState) (timeoutMs : ℤ) (history : List NetEvent) : Bytes :=
  ((w.net.receive (.receive tcp.connection timeoutMs :: history)).getD []).take 4096

/-- Every wait in the loop of `Http.request` comes to an end. -/
def chunksEnd (w : World) (tcp : TcpState) (timeoutMs : ℤ) : ℕ → Bytes → List NetEvent → Bool
  | 0, _, _ => true
  | budget + 1, raw, history =>
    let chunk := arrived w tcp timeoutMs history
    waitEnds w tcp timeoutMs history &&
      (chunk.isEmpty || decide ((raw ++ chunk).length > 128 * 1024) ||
        chunksEnd w tcp timeoutMs budget (raw ++ chunk) (.receive tcp.connection timeoutMs :: history))

/-- The call comes back: a header method has its receiver, no send or handshake raises `SIGPIPE` or waits for
ever, and no wait without a timeout is in vain. -/
def CallRecord.safe (w : World) (c : CallRecord) : Bool :=
  match c.fn.op with
  | .headerExists | .headerValue =>
    match c.ctx.self with
    | .object _ => true
    | _ => false
  | .tcpSend tcp =>
    match c.ctx.firstString (str "send(data) requires 1 argument") (str "data") with
    | .ok data => !tcp.connected || (w.net.send (.send tcp.connection data :: c.store.history)).isSome
    | .error _ => true
  | .tcpRecv tcp | .tcpRecvBanner tcp =>
    match c.ctx.namedInt (str "timeout_ms") 2000 with
    | .ok timeoutMs => !tcp.connected || waitEnds w tcp timeoutMs c.store.history
    | .error _ => true
  | .httpRequest e =>
    match httpRequestText e c.ctx with
    | .ok request =>
      let connected := .connect e.host e.port e.timeoutMs :: c.store.history
      let sent := .send c.store.history.length request :: connected
      !w.net.connect connected ||
        match w.net.send sent with
        | none => false
        | some false => true
        | some true => chunksEnd w ⟨c.store.history.length, true⟩ e.timeoutMs 20 [] sent
    | .error _ => true
  | .tlsHandshake e => (w.net.handshake (.handshake e.host e.port e.timeoutMs :: c.store.history)).isSome
  | _ => true

/-- The other callbacks are always safe. -/
theorem CallRecord.safe_of_not_mayFault (w : World) {c : CallRecord} (h : ¬c.fn.op.MayFault) : c.safe w = true := by
  unfold CallRecord.safe
  cases hop : c.fn.op with
  | headerExists | headerValue | tcpSend | tcpRecv | tcpRecvBanner | httpRequest | tlsHandshake =>
    rw [hop] at h
    exact absurd trivial h
  | _ => rfl

section Faults

variable (w : World) (ctx : CallContext) (m : Machine)

/-- A header method faults without a receiver. -/
theorem headerField_isFault (name : Bytes) (fn : NativeFn)
    (hop : fn.op = .headerExists ∨ fn.op = .headerValue) :
    (headerField name ctx m).IsFault ↔ CallRecord.safe w ⟨fn, ctx, m.store⟩ = false := by
  have hsafe : CallRecord.safe w ⟨fn, ctx, m.store⟩ =
      match ctx.self with | .object _ => true | _ => false := by
    rcases hop with hop | hop <;> simp only [CallRecord.safe, hop]
  rw [hsafe]
  unfold headerField
  cases ctx.self with
  | object address => exact ⟨fun hf => hf.elim, nofun⟩
  | _ => exact ⟨fun _ => rfl, fun _ => trivial⟩

/-- Sending meets a fault just when the network does. -/
theorem tcpSend_isFault (tcp : TcpState) (data : Bytes) :
    (tcpSend w tcp data m).IsFault ↔
      w.net.send (.send tcp.connection data :: m.store.history) = none := by
  have hrun : perform (.send tcp.connection data) w.net.send m =
      .ok (w.net.send (.send tcp.connection data :: m.store.history))
        { m with store := { m.store with history := .send tcp.connection data :: m.store.history } } := rfl
  unfold tcpSend
  rw [Effect.bind_run_ok hrun]
  cases w.net.send (.send tcp.connection data :: m.store.history) with
  | none => exact ⟨fun _ => rfl, fun _ => trivial⟩
  | some sent => exact ⟨fun hf => hf.elim, nofun⟩

/-- `Tcp.send` faults when the send does not come back. -/
theorem tcpSendFn_isFault (tcp : TcpState) (fn : NativeFn) (hop : fn.op = .tcpSend tcp) :
    (tcpSendFn w tcp ctx m).IsFault ↔ CallRecord.safe w ⟨fn, ctx, m.store⟩ = false := by
  simp only [CallRecord.safe, hop]
  unfold tcpSendFn
  cases ctx.firstString (str "send(data) requires 1 argument") (str "data") with
  | error e => exact ⟨fun hf => hf.elim, nofun⟩
  | ok data =>
    rw [orThrow_ok_bind]
    cases htcp : tcp.connected with
    | false => exact ⟨fun hf => hf.elim, nofun⟩
    | true =>
      have hpure : ∀ (sent : Bool) (t : Machine), ¬((pure (.bool sent) : Eval Value) t).IsFault :=
        fun _ _ hf => hf
      rw [if_pos rfl, Effect.isFault_bind hpure, tcpSend_isFault]
      simp

/-- A machine whose network has seen more. -/
def Machine.withHistory (m : Machine) (history : List NetEvent) : Machine :=
  { m with store := { m.store with history := history } }

/-- What `Tcp::receive` does when the wait comes to an end. -/
theorem tcpReceive_of_waitEnds {w : World} {m : Machine} {tcp : TcpState} {timeoutMs : ℤ}
    (h : waitEnds w tcp timeoutMs m.store.history = true) :
    tcpReceive w tcp timeoutMs m = .ok (arrived w tcp timeoutMs m.store.history)
      (m.withHistory (.receive tcp.connection timeoutMs :: m.store.history)) := by
  have hrun : perform (.receive tcp.connection timeoutMs) w.net.receive m =
      .ok (w.net.receive (.receive tcp.connection timeoutMs :: m.store.history))
        (m.withHistory (.receive tcp.connection timeoutMs :: m.store.history)) := rfl
  unfold waitEnds at h
  unfold tcpReceive
  rw [Effect.bind_run_ok hrun]
  unfold arrived
  cases hreceived : w.net.receive (.receive tcp.connection timeoutMs :: m.store.history) with
  | some data => rfl
  | none =>
    rw [hreceived, Option.isSome_none, Bool.or_false, decide_eq_true_eq] at h
    change (if timeoutMs < 0 then Effect.fault .noAnswer else pure [] : Eval Bytes) _ = _
    rw [if_neg (not_lt.mpr h)]
    rfl

/-- Receiving meets a fault just when its wait does not end. -/
theorem tcpReceive_isFault (tcp : TcpState) (timeoutMs : ℤ) :
    (tcpReceive w tcp timeoutMs m).IsFault ↔ waitEnds w tcp timeoutMs m.store.history = false := by
  cases hends : waitEnds w tcp timeoutMs m.store.history with
  | true =>
    rw [tcpReceive_of_waitEnds hends]
    exact ⟨fun hf => hf.elim, nofun⟩
  | false =>
    refine ⟨fun _ => rfl, fun _ => ?_⟩
    have hrun : perform (.receive tcp.connection timeoutMs) w.net.receive m =
        .ok (w.net.receive (.receive tcp.connection timeoutMs :: m.store.history))
          (m.withHistory (.receive tcp.connection timeoutMs :: m.store.history)) := rfl
    simp only [waitEnds, Bool.or_eq_false_iff, decide_eq_false_iff_not, not_le, Option.isSome_eq_false_iff,
      Option.isNone_iff_eq_none] at hends
    unfold tcpReceive
    rw [Effect.bind_run_ok hrun, hends.2]
    change ((if timeoutMs < 0 then Effect.fault .noAnswer else pure [] : Eval Bytes) _).IsFault
    rw [if_pos hends.1]
    trivial

/-- `Tcp.recv` faults when it waits for ever. -/
theorem tcpRecvFn_isFault (tcp : TcpState) (fn : NativeFn) (hop : fn.op = .tcpRecv tcp ∨ fn.op = .tcpRecvBanner tcp) :
    (tcpRecvFn w tcp ctx m).IsFault ↔ CallRecord.safe w ⟨fn, ctx, m.store⟩ = false := by
  have hsafe : CallRecord.safe w ⟨fn, ctx, m.store⟩ =
      match ctx.namedInt (str "timeout_ms") 2000 with
      | .ok timeoutMs => !tcp.connected || waitEnds w tcp timeoutMs m.store.history
      | .error _ => true := by
    rcases hop with hop | hop <;> simp only [CallRecord.safe, hop]
  rw [hsafe]
  unfold tcpRecvFn
  cases ctx.namedInt (str "timeout_ms") 2000 with
  | error e => exact ⟨fun hf => hf.elim, nofun⟩
  | ok timeoutMs =>
    rw [orThrow_ok_bind]
    cases htcp : tcp.connected with
    | false => exact ⟨fun hf => hf.elim, nofun⟩
    | true =>
      have hpure : ∀ (data : Bytes) (t : Machine), ¬((pure (.string data) : Eval Value) t).IsFault :=
        fun _ _ hf => hf
      rw [if_pos rfl, Effect.isFault_bind hpure, tcpReceive_isFault]
      simp

/-- The loop of `Http.request` faults when one of its waits does not come to an end. -/
theorem receiveChunks_isFault (tcp : TcpState) (timeoutMs : ℤ) (budget : ℕ) (raw : Bytes) :
    (receiveChunks w tcp timeoutMs budget raw m).IsFault ↔
      chunksEnd w tcp timeoutMs budget raw m.store.history = false := by
  induction budget generalizing raw m with
  | zero => exact ⟨fun hf => hf.elim, nofun⟩
  | succ budget ih =>
    rw [receiveChunks, chunksEnd]
    cases hends : waitEnds w tcp timeoutMs m.store.history with
    | false =>
      have hfault := (tcpReceive_isFault w m tcp timeoutMs).mpr hends
      refine ⟨fun _ => rfl, fun _ => ?_⟩
      cases hreceive : tcpReceive w tcp timeoutMs m with
      | ok a t => rw [hreceive] at hfault; exact hfault.elim
      | throw e t => rw [hreceive] at hfault; exact hfault.elim
      | fault f t => rw [Effect.bind_run_fault hreceive]; trivial
    | true =>
      rw [Effect.bind_run_ok (tcpReceive_of_waitEnds hends)]
      generalize arrived w tcp timeoutMs m.store.history = chunk
      cases hempty : chunk.isEmpty with
      | true => exact ⟨fun hf => hf.elim, nofun⟩
      | false =>
        by_cases hlong : (raw ++ chunk).length > 128 * 1024
        · rw [if_neg Bool.false_ne_true, if_pos hlong, decide_eq_true hlong]
          exact ⟨fun hf => hf.elim, nofun⟩
        · rw [if_neg Bool.false_ne_true, if_neg hlong, decide_eq_false hlong]
          exact ih _ _

/-- `Tls.handshake` faults when the handshake does not come back. -/
theorem tlsHandshake_isFault (e : Endpoint) (fn : NativeFn) (hop : fn.op = .tlsHandshake e) :
    ((tlsHandshake w e >>= makeTlsReportObj) m).IsFault ↔ CallRecord.safe w ⟨fn, ctx, m.store⟩ = false := by
  simp only [CallRecord.safe, hop]
  have hreport : ∀ (report : TlsHandshakeReport) (t : Machine), ¬(makeTlsReportObj report t).IsFault :=
    fun _ _ hf => hf
  rw [Effect.isFault_bind hreport]
  have hrun : perform (.handshake e.host e.port e.timeoutMs) w.net.handshake m =
      .ok (w.net.handshake (.handshake e.host e.port e.timeoutMs :: m.store.history))
        (m.withHistory (.handshake e.host e.port e.timeoutMs :: m.store.history)) := rfl
  unfold tlsHandshake
  rw [Effect.bind_run_ok hrun]
  cases w.net.handshake (.handshake e.host e.port e.timeoutMs :: m.store.history) with
  | none => exact ⟨fun _ => rfl, fun _ => trivial⟩
  | some report => exact ⟨fun hf => hf.elim, nofun⟩

/-- `Http.request` faults when it connects and its send or one of its waits does not come back. -/
theorem httpRequestFn_isFault (e : Endpoint) (fn : NativeFn) (hop : fn.op = .httpRequest e) :
    (httpRequestFn w e ctx m).IsFault ↔ CallRecord.safe w ⟨fn, ctx, m.store⟩ = false := by
  simp only [CallRecord.safe, hop]
  unfold httpRequestFn
  cases httpRequestText e ctx with
  | error e => exact ⟨fun hf => hf.elim, nofun⟩
  | ok request =>
    set connected : List NetEvent := .connect e.host e.port e.timeoutMs :: m.store.history with hconnected
    have hconnect : tcpConnect w e.host e.port e.timeoutMs m =
        .ok ⟨m.store.history.length, w.net.connect connected⟩ (m.withHistory connected) := rfl
    rw [orThrow_ok_bind, Effect.bind_run_ok hconnect]
    cases w.net.connect connected with
    | false => exact ⟨fun hf => hf.elim, nofun⟩
    | true =>
      set sent : List NetEvent := .send m.store.history.length request :: connected with hsent
      have hrun : perform (.send m.store.history.length request) w.net.send (m.withHistory connected) =
          .ok (w.net.send sent) (m.withHistory sent) := rfl
      rw [if_pos rfl]
      cases hanswer : w.net.send sent with
      | none =>
        have hfault : tcpSend w ⟨m.store.history.length, true⟩ request (m.withHistory connected) =
            .fault .noAnswer (m.withHistory sent) := by
          rw [tcpSend, Effect.bind_run_ok hrun, hanswer]
          rfl
        rw [Effect.bind_run_fault hfault]
        exact ⟨fun _ => by simp [← hsent, hanswer], fun _ => trivial⟩
      | some answer =>
        have hok : tcpSend w ⟨m.store.history.length, true⟩ request (m.withHistory connected) =
            .ok answer (m.withHistory sent) := by
          rw [tcpSend, Effect.bind_run_ok hrun, hanswer]
          rfl
        rw [Effect.bind_run_ok hok]
        cases answer with
        | false => exact ⟨fun hf => hf.elim, fun hf => by simp [← hsent, hanswer] at hf⟩
        | true =>
          rw [if_pos rfl, Effect.isFault_bind, receiveChunks_isFault]
          · simp [Machine.withHistory, ← hsent, hanswer]
          · intro raw t
            refine Effect.Spec.not_isFault (R := Machine.Quiet) (E := Exn.IsError) ?_ t
            split
            · exact quietly_pure _
            · exact gently_makeResponseObj gentle_quiet _

/-- A quiet callback faults exactly when its call is not safe. -/
theorem callNative_isFault (fn : NativeFn) (h : fn.op.IsQuiet) (block : Option (Eval Unit)) :
    (callNative w fn.op ctx block m).IsFault ↔ CallRecord.safe w ⟨fn, ctx, m.store⟩ = false := by
  by_cases hmay : fn.op.MayFault
  · cases hop : fn.op with
    | headerExists => exact headerField_isFault w ctx m _ fn (.inl hop)
    | headerValue => exact headerField_isFault w ctx m _ fn (.inr hop)
    | tcpSend tcp => exact tcpSendFn_isFault w ctx m tcp fn hop
    | tcpRecv tcp => exact tcpRecvFn_isFault w ctx m tcp fn (.inl hop)
    | tcpRecvBanner tcp => exact tcpRecvFn_isFault w ctx m tcp fn (.inr hop)
    | httpRequest e => exact httpRequestFn_isFault w ctx m e fn hop
    | tlsHandshake e => exact tlsHandshake_isFault w ctx m e fn hop
    | _ => rw [hop] at hmay; exact hmay.elim
  · have hspec : Quietly (fun _ => False) (callNative w fn.op ctx block) :=
      (quietly_callNative w h ctx block).mono (fun _ _ h => h) (fun _ h => h) fun _ hf => hmay hf
    have hsafe := CallRecord.safe_of_not_mayFault w (c := ⟨fn, ctx, m.store⟩) hmay
    rw [hsafe]
    exact ⟨fun hf => (hspec.not_isFault m hf).elim, nofun⟩

end Faults

/-- No calls were made, runs were told their target at most, and the KB and old objects were left alone. -/
structure Machine.Silent (m m' : Machine) : Prop where
  locals : m'.locals = m.locals
  trace : m'.trace = m.trace
  kb : m'.store.kb = m.store.kb
  runs : ∀ r, m'.store.runs r = { m.store.runs r with target := (m'.store.runs r).target }
  next_le : m.store.next ≤ m'.store.next
  objects : ∀ address < m.store.next, m'.store.objects address = m.store.objects address

/-- Doing nothing is silent. -/
theorem Machine.Silent.refl (m : Machine) : m.Silent m :=
  ⟨rfl, rfl, rfl, fun _ => rfl, le_rfl, fun _ _ => rfl⟩

/-- Two silent steps in a row are silent. -/
theorem Machine.Silent.trans (m m' m'' : Machine) (h : m.Silent m') (h' : m'.Silent m'') : m.Silent m'' where
  locals := h'.locals.trans h.locals
  trace := h'.trace.trans h.trace
  kb := h'.kb.trans h.kb
  runs r := by rw [h'.runs r, h.runs r]
  next_le := h.next_le.trans h'.next_le
  objects address ha := (h'.objects address (ha.trans_le h.next_le)).trans (h.objects address ha)

/-- A computation that is silent and does not fail. -/
abbrev Silently {α : Type} (p : Eval α) : Prop :=
  Effect.Spec Machine.Silent (fun _ => False) (fun _ => False) p

/-- Building an object is silent. -/
theorem silently_newObject (typeName : Bytes) (fields : List (Bytes × Value)) (methods : List (Bytes × Native)) :
    Silently (newObject typeName fields methods) := by
  intro m
  refine ⟨rfl, rfl, rfl, fun _ => rfl, ?_, fun address ha => ?_⟩
  · show m.store.next ≤ m.store.next + methods.length + 1
    omega
  · exact Function.update_of_ne (Nat.ne_of_lt (ha.trans_le (Nat.le_add_right _ _))) _ _

/-- Building a function is silent. -/
theorem silently_newFunction (op : Native) : Silently (newFunction op) := fun _ =>
  ⟨rfl, rfl, rfl, fun _ => rfl, Nat.le_succ _, fun _ _ => rfl⟩

/-- Building the target object is silent. -/
theorem silently_makeTargetObj (run : ℕ) : Silently (makeTargetObj run) := by
  refine Effect.Spec.bind Machine.Silent.trans (Effect.spec_gets Machine.Silent.refl _) fun state => ?_
  refine Effect.Spec.bind Machine.Silent.trans (Effect.spec_gets Machine.Silent.refl _) fun product => ?_
  refine Effect.Spec.bind Machine.Silent.trans (Effect.spec_gets Machine.Silent.refl _) fun version => ?_
  refine Effect.Spec.bind Machine.Silent.trans (silently_newObject _ _ _) fun target => ?_
  refine Effect.Spec.bind Machine.Silent.trans ?_ fun _ => Effect.spec_pure Machine.Silent.refl _
  refine Effect.spec_modify fun m => ⟨rfl, rfl, rfl, fun r => ?_, le_rfl, fun _ _ => rfl⟩
  by_cases hr : r = run
  · subst hr
    simp only [Store.withRun, Function.update_self]
  · simp only [Store.withRun, Function.update_of_ne hr]

/-- Defining a global is silent when building its value is. -/
theorem silently_defineGlobal {make : Eval Value} (h : Silently make) (name : Bytes) :
    Silently (defineGlobal name make) :=
  Effect.Spec.bind Machine.Silent.trans h fun _ => Effect.spec_modify fun _ =>
    ⟨rfl, rfl, rfl, fun _ => rfl, le_rfl, fun _ _ => rfl⟩

/-- Silent computations in a row are silent. -/
theorem Silently.next {p q : Eval Unit} (hp : Silently p) (hq : Silently q) : Silently (p >>= fun _ => q) :=
  hp.bind Machine.Silent.trans fun _ => hq

/-- What is registered behind the plugin object. -/
theorem silently_registerRest (run : ℕ) : Silently (registerRest run) := by
  refine (silently_defineGlobal (silently_makeTargetObj run) _).next ?_
  refine (silently_defineGlobal (silently_newFunction _) _).next ?_
  refine (silently_defineGlobal (silently_newObject _ _ _) _).next ?_
  refine (silently_defineGlobal (silently_newObject _ _ _) _).next ?_
  refine (silently_defineGlobal (silently_newFunction _) _).next ?_
  refine (silently_defineGlobal (silently_newFunction _) _).next ?_
  refine (silently_defineGlobal (silently_newFunction _) _).next ?_
  exact silently_defineGlobal (silently_newFunction _) _

/-- Registration is silent and does not fail. -/
theorem silently_registerStdlib (run : ℕ) : Silently (registerStdlib run) :=
  (silently_defineGlobal (silently_newObject _ _ _) _).next (silently_registerRest run)

/-- After registration `plugin` is the plugin object of the run. -/
theorem registerStdlib_plugin (run : ℕ) (m : Machine) : ∃ m', registerStdlib run m = .ok () m' ∧ m.Silent m' ∧
    m'.globals (str "plugin") = some (.object (m.store.next + 6)) ∧
    (m'.store.objects (m.store.next + 6)).methods = methodTable m.store.next (pluginMethods run) := by
  obtain ⟨_, m', hrun, hsilent⟩ := (silently_registerStdlib run).run_ok m
  refine ⟨m', hrun, hsilent, ?_, ?_⟩
  · have hglobals : ∃ u, registerStdlib run m = .ok () u ∧
        u.globals (str "plugin") = some (.object (m.store.next + 6)) := ⟨_, rfl, rfl⟩
    obtain ⟨u, hu, hglobals⟩ := hglobals
    rw [hrun] at hu
    cases hu
    exact hglobals
  · have hfirst : ∃ u, defineGlobal (str "plugin") (makePluginObj run) m = .ok () u ∧
        u.store.next = m.store.next + 7 ∧
        u.store.objects = update m.store.objects (m.store.next + 6)
          { typeName := str "Plugin", methods := methodTable m.store.next (pluginMethods run) } := ⟨_, rfl, rfl, rfl⟩
    obtain ⟨u, hu, hnext, hobjects⟩ := hfirst
    obtain ⟨_, v, hv, hrest⟩ := (silently_registerRest run).run_ok u
    have hsame : registerStdlib run m = .ok () v := (Effect.bind_run_ok hu _).trans hv
    rw [hrun] at hsame
    cases hsame
    rw [hrest.objects _ (by omega), hobjects, Function.update_self]

end ZeroTrust.Ztl
