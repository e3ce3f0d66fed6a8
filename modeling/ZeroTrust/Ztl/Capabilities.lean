import ZeroTrust.Ztl.Confinement
import ZeroTrust.Ztl.Reported

/-!
# What programs can do

A program reaches a callback by a word: a global that it names, or a member that it takes from an object. The
callbacks of connections are reached through objects that other callbacks make. So the words of all plugins that
run on a port bound what happens there, whatever the plugins hand to each other in the KB and in targets: without
`net::` there is no traffic, without `set_service` no service is claimed, without `finding` nothing is found.
-/

namespace ZeroTrust.Ztl

open Function (update update_self update_of_ne)

/-- The word by which programs reach a callback. -/
def Native.word : Native → Bytes
  | pluginName _ => str "name"
  | pluginDescription _ => str "description"
  | pluginCategory _ => str "category"
  | pluginFilter _ => str "filter"
  | pluginSetService _ => str "set_service"
  | pluginRun _ => str "run"
  | finding _ => str "finding"
  | kbSet _ => str "set"
  | kbGet _ => str "get"
  | kbHas _ => str "has"
  | kbSetScoped _ => str "set_scoped"
  | kbGetScoped _ => str "get_scoped"
  | kbHasScoped _ => str "has_scoped"
  | cveCheck => str "check"
  | cveVerify => str "verify"
  | cveLookup => str "cve_lookup"
  | netTcp => str "net::tcp"
  | netHttp => str "net::http"
  | netTls => str "net::tls"
  | tcpConnected _ => str "connected"
  | tcpSend _ => str "send"
  | tcpRecv _ => str "recv"
  | tcpRecvBanner _ => str "recv_banner"
  | httpRequest _ => str "request"
  | tlsHandshake _ => str "handshake"
  | headerExists => str "exists"
  | headerValue => str "value"
  | responseStatus _ => str "status"
  | responseBody _ => str "body"
  | responseHeaders _ => str "headers"
  | responseHeader _ => str "header"

/-- The word of the callback that makes the object of a callback, for connections. -/
def Native.maker : Native → Option Bytes
  | tcpConnected _ | tcpSend _ | tcpRecv _ | tcpRecvBanner _ => some (str "net::tcp")
  | httpRequest _ => some (str "net::http")
  | tlsHandshake _ => some (str "net::tls")
  | _ => none

/-- A callback that can be called with some words. -/
structure Native.Allowed (words : Bytes → Prop) (op : Native) : Prop where
  word : words op.word
  maker : ∀ x ∈ op.maker, words x

/-- The words of an HTTP request. -/
def Requests (words : Bytes → Prop) : Prop := words (str "net::http") ∧ words (str "request")

/-- What can happen on the network with some words. -/
def NetEvent.Allowed (words : Bytes → Prop) : NetEvent → Prop
  | .start _ _ _ => True
  | .connect _ _ _ => words (str "net::tcp") ∨ Requests words
  | .send _ _ => (words (str "net::tcp") ∧ words (str "send")) ∨ Requests words
  | .receive _ _ => (words (str "net::tcp") ∧ (words (str "recv") ∨ words (str "recv_banner"))) ∨ Requests words
  | .handshake _ _ _ => words (str "net::tls") ∧ words (str "handshake")
  | .clock => words (str "finding")

mutual

/-- The words of an expression. -/
def Expr.words : Expr → List Bytes
  | .null _ | .bool _ _ | .number _ _ | .string _ _ => []
  | .ident _ name => [name]
  | .scoped _ scope name => [scope ++ str "::" ++ name]
  | .member _ object member => member :: object.words
  | .call _ callee args block => callee.words ++ (argsWords args ++ blockWords block)
  | .unary _ _ operand => operand.words
  | .binary _ _ lhs rhs => lhs.words ++ rhs.words

/-- The words of arguments. -/
def argsWords : List CallArg → List Bytes
  | [] => []
  | .mk _ value :: args => value.words ++ argsWords args

/-- The words of a block. -/
def blockWords : Option (List Stmt) → List Bytes
  | none => []
  | some body => stmtsWords body

/-- The words of a value. -/
def valueWords : Option Expr → List Bytes
  | none => []
  | some value => value.words

/-- The words of a statement. -/
def Stmt.words : Stmt → List Bytes
  | .expr _ value => value.words
  | .assign _ _ value => value.words
  | .ifThen _ condition thenBranch elseBranch => condition.words ++ (stmtsWords thenBranch ++ stmtsWords elseBranch)
  | .ret _ value => valueWords value
  | .includeModule _ _ => []

/-- The words of statements. -/
def stmtsWords : List Stmt → List Bytes
  | [] => []
  | stmt :: stmts => stmt.words ++ stmtsWords stmts

end

/-- The words of a plugin. -/
def LoadedPlugin.words (p : LoadedPlugin) : List Bytes := stmtsWords p.program.statements

section Reach

variable (words : Bytes → Prop)

/-- A value that gives no other callbacks. -/
def Value.Within (v : Value) : Prop := ∀ fn, v = .function fn → fn.op.Allowed words

/-- A map to such values. -/
def Env.Within (env : Env) : Prop := ∀ name v, env name = some v → v.Within words

/-- Globals: callbacks of the library stand under their words. -/
def Env.Offers (env : Env) : Prop := ∀ name v, env name = some v →
  v.Within words ∨ ∃ fn, v = .function fn ∧ fn.op.word = name ∧ fn.op.maker = none

/-- An object with callbacks under their words. -/
structure Object.Within (o : Object) : Prop where
  fields : o.fields.Within words
  methods : ∀ name fn, o.methods name = some fn → fn.op.word = name ∧ ∀ x ∈ fn.op.maker, words x

/-- Such arguments. -/
structure Arguments.Within (args : Arguments) : Prop where
  positional : ∀ v ∈ args.positional, v.Within words
  named : args.named.Within words

/-- Words with which the KB can be written. -/
def WritesKb : Prop := words (str "set") ∨ words (str "set_scoped") ∨ words (str "set_service")

/-- The state of a run as far as it can come with some words. -/
structure RunState.Within (state : RunState) : Prop where
  service : words (str "set_service") ∨ state.setService = [] ∧ state.setProduct = [] ∧ state.setVersion = []
  findings : words (str "finding") ∨ state.findings = []

/-- A store as far as programs can come with some words, from a KB on. -/
structure Store.Within (initial : Env) (s : Store) : Prop where
  kb : s.kb.Within words
  objects : ∀ address, (s.objects address).Within words
  history : ∀ e ∈ s.history, e.Allowed words
  unwritten : WritesKb words ∨ s.kb = initial

/-- A machine in a run as far as its program can come with some words. -/
structure Machine.Within (initial : Env) (run : ℕ) (m : Machine) : Prop where
  globals : m.globals.Offers words
  locals : ∀ scope ∈ m.locals, Env.Within words scope
  store : m.store.Within words initial
  run : (m.store.runs run).Within words

end Reach

/-- A computation that stays within reach. -/
abbrev StaysWithin {α : Type} (words : Bytes → Prop) (initial : Env) (run : ℕ) (P : α → Prop) (p : Eval α) : Prop :=
  Effect.Keeps (Machine.Within words initial run) P p

section Within

variable {words : Bytes → Prop} {initial : Env} {run : ℕ}

/-- Data gives no callbacks. -/
theorem Value.IsData.within {v : Value} (h : v.IsData) : v.Within words := fun fn hv => absurd hv (h fn)

/-- The empty scope gives no callbacks. -/
theorem Env.within_empty : Env.empty.Within words := nofun

/-- Binding such a value keeps a scope within the words. -/
theorem Env.Within.set {env : Env} (h : env.Within words) {v : Value} (hv : v.Within words) (name : Bytes) :
    (env.set name v).Within words := by
  intro other u hu
  obtain ⟨-, rfl⟩ | hold := eq_or_of_update hu
  · exact hv
  · exact h other u hold

/-- Binding an argument keeps a scope within the words. -/
theorem Env.Within.setArgument {env named : Env} (h : env.Within words) (hnamed : named.Within words) (name : Bytes) :
    (env.setArgument name (named name)).Within words := by
  cases hv : named name with
  | none => exact h
  | some v => exact h.set (hnamed name v hv) name

/-- What a scope has under a name, or a default within the words, is within them. -/
theorem Env.Within.getD {env : Env} (h : env.Within words) (name : Bytes) {v : Value} (hv : v.Within words) :
    ((env name).getD v).Within words := by
  cases hu : env name with
  | none => exact hv
  | some u => exact h name u hu

/-- One more global within the words, or of the library under its word, can be offered. -/
theorem Env.Offers.set {env : Env} (h : env.Offers words) {v : Value} {name : Bytes}
    (hv : v.Within words ∨ ∃ fn, v = .function fn ∧ fn.op.word = name ∧ fn.op.maker = none) :
    (env.set name v).Offers words := by
  intro other u hu
  obtain ⟨rfl, rfl⟩ | hold := eq_or_of_update hu
  · exact hv
  · exact h other u hold

/-- Assigning a value within the words keeps the local scopes within them. -/
theorem assignLocals_within {name : Bytes} {v : Value} (hv : v.Within words) {locals locals' : List Env}
    (hlocals : ∀ scope ∈ locals, Env.Within words scope) (h : assignLocals name v locals = some locals') :
    ∀ scope ∈ locals', Env.Within words scope := by
  induction locals generalizing locals' with
  | nil => cases h
  | cons scope scopes ih =>
    obtain ⟨hscope, hscopes⟩ := List.forall_mem_cons.mp hlocals
    rw [assignLocals] at h
    split at h
    · cases h
      exact List.forall_mem_cons.mpr ⟨hscope.set hv name, hscopes⟩
    · obtain ⟨rest, hrest, rfl⟩ := Option.map_eq_some_iff.mp h
      exact List.forall_mem_cons.mpr ⟨hscope, ih hscopes hrest⟩

/-- A variable that a program names is within reach. -/
theorem lookup_within {globals : Env} {locals : List Env} (hglobals : globals.Offers words)
    (hlocals : ∀ scope ∈ locals, Env.Within words scope) {name : Bytes} (hname : words name) {v : Value}
    (hv : lookup globals locals name = some v) : v.Within words := by
  induction locals with
  | nil =>
    obtain hwithin | ⟨fn, rfl, rfl, hmaker⟩ := hglobals name v hv
    · exact hwithin
    · intro fn' hfn'
      cases hfn'
      exact ⟨hname, by simp [hmaker]⟩
  | cons scope scopes ih =>
    obtain ⟨hscope, hscopes⟩ := List.forall_mem_cons.mp hlocals
    rw [lookup] at hv
    cases hu : scope name with
    | none =>
      rw [hu] at hv
      exact ih hscopes hv
    | some u =>
      rw [hu] at hv
      cases hv
      exact hscope name v hu

namespace Machine.Within

variable {m : Machine}

/-- A store within the words with the same runs keeps the machine within them. -/
theorem withStore (h : m.Within words initial run) {s : Store} (hs : s.Within words initial)
    (hrun : s.runs = m.store.runs) : Machine.Within words initial run { m with store := s } :=
  ⟨h.globals, h.locals, hs, hrun ▸ h.run⟩

/-- An allowed network event keeps the machine within the words. -/
theorem event (h : m.Within words initial run) {e : NetEvent} (he : e.Allowed words) :
    Machine.Within words initial run { m with store := { m.store with history := e :: m.store.history } } :=
  h.withStore ⟨h.store.kb, h.store.objects, List.forall_mem_cons.mpr ⟨he, h.store.history⟩, h.store.unwritten⟩ rfl

/-- A write of the KB, where the words allow one, keeps the machine within them. -/
theorem setKb (h : m.Within words initial run) (key : Bytes) {v : Value} (hv : v.Within words)
    (hwrites : WritesKb words) :
    Machine.Within words initial run { m with store := { m.store with kb := m.store.kb.set key v } } :=
  h.withStore ⟨h.store.kb.set hv key, h.store.objects, h.store.history, .inl hwrites⟩ rfl

/-- An object within the words keeps the machine within them. -/
theorem setObject (h : m.Within words initial run) (address next : ℕ) {o : Object} (ho : o.Within words) :
    Machine.Within words initial run { m with store := { m.store with
      objects := update m.store.objects address o, next := next } } := by
  refine h.withStore ⟨h.store.kb, fun other => ?_, h.store.history, h.store.unwritten⟩ rfl
  change (update m.store.objects address o other).Within words
  by_cases hother : other = address
  · subst hother
    rw [update_self]
    exact ho
  · rw [update_of_ne hother]
    exact h.store.objects other

/-- A change of a run within the words keeps the machine within them. -/
theorem withRun (h : m.Within words initial run) (r : ℕ) {f : RunState → RunState}
    (hf : ∀ state, state.Within words → (f state).Within words) :
    Machine.Within words initial run { m with store := m.store.withRun r f } := by
  refine ⟨h.globals, h.locals, ⟨h.store.kb, h.store.objects, h.store.history, h.store.unwritten⟩, ?_⟩
  change (update m.store.runs r (f (m.store.runs r)) run).Within words
  by_cases hr : run = r
  · subst hr
    rw [update_self]
    exact hf _ h.run
  · rw [update_of_ne hr]
    exact h.run

/-- A claim writes texts and arguments. -/
theorem claim (h : m.Within words initial run) (r : ℕ) (svc : Bytes) {named : Env} (hnamed : named.Within words)
    (hword : words (str "set_service")) :
    Machine.Within words initial run { m with store := m.store.claim r svc named } := by
  have hsvc : Value.Within words (.string svc) := nofun
  refine h.withStore ⟨?_, fun other => ?_, h.store.history, .inl (.inr (.inr hword))⟩ rfl
  · change (if (m.store.runs r).hasKb then claimInKb svc named m.store.kb else m.store.kb).Within words
    split
    · exact (((h.store.kb.set hsvc _).setArgument hnamed _).setArgument hnamed _).setArgument hnamed _
    · exact h.store.kb
  · rw [Store.claim]
    cases (m.store.runs r).target with
    | none => exact h.store.objects other
    | some address =>
      have hfields := (((h.store.objects address).fields.set hsvc (str "service")).setArgument hnamed
        (str "version")).setArgument hnamed (str "product")
      have hobject : Object.Within words
          { m.store.objects address with fields := claimInTarget svc named (m.store.objects address).fields } :=
        ⟨hfields, (h.store.objects address).methods⟩
      exact (h.setObject address m.store.next hobject).store.objects other

/-- Recording a call keeps the machine within the words. -/
theorem record (h : m.Within words initial run) (fn : NativeFn) (ctx : CallContext) :
    (m.record fn ctx).Within words initial run := ⟨h.globals, h.locals, h.store, h.run⟩

/-- Entering the block of `plugin.run` keeps the machine within the words. -/
theorem enterGlobal (h : m.Within words initial run) : m.enterGlobal.Within words initial run :=
  ⟨h.globals, List.forall_mem_singleton.mpr Env.within_empty, h.store, h.run⟩

/-- Leaving the block of `plugin.run` keeps the machine within the words. -/
theorem restore {m' : Machine} (h : m.Within words initial run) (h' : m'.Within words initial run) :
    (m.restore m').Within words initial run := ⟨h'.globals, h.locals, h'.store, h'.run⟩

/-- Opening a scope keeps the machine within the words. -/
theorem push (h : m.Within words initial run) : m.push.Within words initial run :=
  ⟨h.globals, List.forall_mem_cons.mpr ⟨Env.within_empty, h.locals⟩, h.store, h.run⟩

/-- Closing a scope keeps the machine within the words. -/
theorem pop (h : m.Within words initial run) : m.pop.Within words initial run :=
  ⟨h.globals, fun scope hscope => h.locals scope (List.mem_of_mem_tail hscope), h.store, h.run⟩

/-- Defining a name keeps the machine within the words. -/
theorem define (h : m.Within words initial run) (name : Bytes) {v : Value} (hv : v.Within words) :
    (m.define name v).Within words initial run := by
  rw [Machine.define]
  split
  · exact ⟨h.globals.set (.inl hv), h.locals, h.store, h.run⟩
  · next scope scopes hlocals =>
    obtain ⟨hscope, hscopes⟩ := List.forall_mem_cons.mp (hlocals ▸ h.locals)
    exact ⟨h.globals, List.forall_mem_cons.mpr ⟨hscope.set hv name, hscopes⟩, h.store, h.run⟩

/-- Assigning to a name keeps the machine within the words. -/
theorem assign (h : m.Within words initial run) (name : Bytes) {v : Value} (hv : v.Within words) :
    (m.assign name v).Within words initial run := by
  rw [Machine.assign]
  split
  · next locals hlocals => exact ⟨h.globals, assignLocals_within hv h.locals hlocals, h.store, h.run⟩
  · split
    · exact ⟨h.globals.set (.inl hv), h.locals, h.store, h.run⟩
    · exact h.define name hv

end Machine.Within

section Steps

variable {α β : Type} {Q : β → Prop}

/-- Throwing or answering a result changes nothing. -/
theorem staysWithin_orThrow (x : Except RuntimeError α) :
    StaysWithin words initial run (fun a => x = .ok a) (orThrow x) := by
  cases x with
  | ok a => exact Effect.keeps_pure rfl
  | error e => exact Effect.keeps_throw _

/-- A check stays within the words when what follows does. -/
theorem staysWithin_check (x : Except RuntimeError α) {k : α → Eval β}
    (hk : ∀ a, StaysWithin words initial run Q (k a)) : StaysWithin words initial run Q (orThrow x >>= k) :=
  (staysWithin_orThrow x).bind fun a _ => hk a

/-- Reading the store stays within the words when what follows does. -/
theorem staysWithin_read (f : Store → α) {k : α → Eval β} (hk : ∀ a, StaysWithin words initial run Q (k a)) :
    StaysWithin words initial run Q (readStore f >>= k) :=
  Effect.Keeps.bind (P := fun _ => True) (Effect.keeps_gets fun _ _ => trivial) fun a _ => hk a

/-- An allowed network event stays within the words. -/
theorem staysWithin_perform {e : NetEvent} (he : e.Allowed words) (answer : List NetEvent → α) :
    StaysWithin words initial run (fun _ => True) (perform e answer) := by
  apply Effect.Keeps.bind (P := fun _ => True) (Effect.keeps_modify fun m hm => hm.event he)
  exact fun _ _ => Effect.keeps_gets fun _ _ => trivial

/-- A change of a run's state stays within the words when the new state is. -/
theorem staysWithin_changeRun (r : ℕ) {f : RunState → RunState}
    (hf : ∀ state, state.Within words → (f state).Within words) :
    StaysWithin words initial run (fun _ => True) (changeRun r f) := Effect.keeps_modify fun _ hm => hm.withRun r hf

/-- A change of the metadata stays within the words. -/
theorem staysWithin_changeMeta (r : ℕ) (f : PluginMeta → PluginMeta) :
    StaysWithin words initial run (fun _ => True) (changeMeta r f) :=
  staysWithin_changeRun r fun _ h => ⟨h.service, h.findings⟩

end Steps

/-- Building an object stays within the words when its parts are. -/
theorem staysWithin_newObject {typeName : Bytes} {fields : List (Bytes × Value)} {methods : List (Bytes × Native)}
    (hfields : ∀ x ∈ fields, x.2.Within words)
    (hmethods : ∀ x ∈ methods, x.2.word = x.1 ∧ ∀ y ∈ x.2.maker, words y) :
    StaysWithin words initial run (Value.Within words) (newObject typeName fields methods) := by
  apply staysWithin_read
  intro id
  apply Effect.Keeps.bind (P := fun _ => True)
  · apply Effect.keeps_modify
    intro m hm
    apply hm.setObject
    exact ⟨fun name v hv => hfields _ (fieldTable_mem hv), fun name fn hfn => hmethods _ (methodTable_mem hfn)⟩
  · exact fun _ _ => Effect.keeps_pure nofun

/-- Objects with data in their fields. -/
theorem staysWithin_dataObject {typeName : Bytes} {fields : List (Bytes × Value)} {methods : List (Bytes × Native)}
    (hfields : ∀ x ∈ fields, x.2.IsData) (hmethods : ∀ x ∈ methods, x.2.word = x.1 ∧ ∀ y ∈ x.2.maker, words y) :
    StaysWithin words initial run (Value.Within words) (newObject typeName fields methods) :=
  staysWithin_newObject (fun x hx => (hfields x hx).within) hmethods

/-- Objects without methods. -/
theorem staysWithin_record {typeName : Bytes} {fields : List (Bytes × Value)} (hfields : ∀ x ∈ fields, x.2.IsData) :
    StaysWithin words initial run (Value.Within words) (newObject typeName fields []) :=
  staysWithin_dataObject hfields nofun

/-- Answering data stays within the words. -/
theorem staysWithin_data {v : Value} (hv : v.IsData) : StaysWithin words initial run (Value.Within words) (pure v) :=
  Effect.keeps_pure hv.within

section Callbacks

variable (w : World) (r : ℕ) (ctx : CallContext)

/-- The setters of the metadata stay within the words. -/
theorem staysWithin_pluginSetter (what : Bytes) (set : PluginMeta → Bytes → PluginMeta) :
    StaysWithin words initial run (Value.Within words) (pluginSetter r what set ctx) := by
  unfold pluginSetter
  split
  · exact staysWithin_data nofun
  · apply staysWithin_check
    intro s
    exact (staysWithin_changeMeta r (set · s)).bind fun _ _ => staysWithin_data nofun

/-- `plugin.filter` stays within the words. -/
theorem staysWithin_pluginFilter : StaysWithin words initial run (Value.Within words) (pluginFilter r ctx) := by
  unfold pluginFilter
  apply (staysWithin_changeMeta r _).bind
  intro _ _
  split
  · exact staysWithin_data nofun
  · apply staysWithin_check
    intro s
    exact (staysWithin_changeMeta r _).bind fun _ _ => staysWithin_data nofun

/-- `plugin.set_service` stays within words that have `set_service`. -/
theorem staysWithin_pluginSetService (hword : words (str "set_service"))
    (hargs : Arguments.Within words ⟨ctx.positional, ctx.named⟩) :
    StaysWithin words initial run (Value.Within words) (pluginSetService r ctx) := by
  unfold pluginSetService
  have hset {f : RunState → RunState} (hf : ∀ state, (f state).findings = state.findings) :
      StaysWithin words initial run (fun _ => True) (changeRun r f) :=
    staysWithin_changeRun r fun state h => ⟨.inl hword, hf state ▸ h.findings⟩
  apply staysWithin_check
  intro svc
  refine Effect.Keeps.bind (hset fun _ => rfl) fun _ _ => ?_
  apply staysWithin_read
  intro setVersion
  apply staysWithin_check
  intro version
  refine Effect.Keeps.bind (hset fun _ => rfl) fun _ _ => ?_
  apply staysWithin_read
  intro setProduct
  apply staysWithin_check
  intro product
  refine Effect.Keeps.bind (hset fun _ => rfl) fun _ _ => ?_
  exact Effect.Keeps.bind (P := fun _ => True)
    (Effect.keeps_modify fun _ hm => hm.claim r svc hargs.named hword) fun _ _ => staysWithin_data nofun

/-- `finding` stays within words that have `finding`. -/
theorem staysWithin_findingFn (hword : words (str "finding")) :
    StaysWithin words initial run (Value.Within words) (findingFn w r ctx) := by
  unfold findingFn
  apply staysWithin_read
  intro f
  apply staysWithin_check
  intro f
  apply (staysWithin_perform (show NetEvent.clock.Allowed words from hword) w.net.clock).bind
  intro now _
  refine Effect.Keeps.bind (staysWithin_changeRun r ?_) fun _ _ => staysWithin_data nofun
  exact fun _ h => ⟨h.service, .inl hword⟩

/-- A write of the KB stays within words that can write it. -/
theorem staysWithin_kbWrite (hwrites : WritesKb words) (key : Bytes) {v : Value} (hv : v.Within words) :
    StaysWithin words initial run (Value.Within words) (do
      if ← readRun r (·.hasKb) then changeStore fun s => { s with kb := s.kb.set key v }
      return Value.null) := by
  apply staysWithin_read
  intro hasKb
  cases hasKb with
  | false => exact staysWithin_data nofun
  | true =>
    exact Effect.Keeps.bind (P := fun _ => True) (Effect.keeps_modify fun _ hm => hm.setKb key hv hwrites) fun _ _ =>
      staysWithin_data nofun

/-- `kb.set` stays within words that have `set`. -/
theorem staysWithin_kbSet (hword : words (str "set")) (hargs : Arguments.Within words ⟨ctx.positional, ctx.named⟩) :
    StaysWithin words initial run (Value.Within words) (kbSet r ctx) := by
  unfold kbSet
  split
  · next key v rest hpositional =>
    apply staysWithin_check
    exact fun name => staysWithin_kbWrite r (.inl hword) name (hargs.positional v (by simp [hpositional]))
  · exact Effect.keeps_throw _

/-- `kb.set_scoped` stays within words that have `set_scoped`. -/
theorem staysWithin_kbSetScoped (hword : words (str "set_scoped"))
    (hargs : Arguments.Within words ⟨ctx.positional, ctx.named⟩) :
    StaysWithin words initial run (Value.Within words) (kbSetScoped r ctx) := by
  unfold kbSetScoped
  split
  · next scope key v rest hpositional =>
    apply staysWithin_check
    exact fun name => staysWithin_kbWrite r (.inr (.inl hword)) name (hargs.positional v (by simp [hpositional]))
  · exact Effect.keeps_throw _

/-- What is read from the KB is within the words. -/
theorem staysWithin_readKb (key : Bytes) :
    StaysWithin words initial run (fun v => ∀ u, v = some u → u.Within words) (readKb r key) := by
  apply Effect.keeps_gets
  intro m hm u hu
  change (if (m.store.runs r).hasKb then m.store.kb key else none) = some u at hu
  split at hu
  · exact hm.store.kb key u hu
  · cases hu

/-- An entry of the KB, or null, is within the words. -/
theorem staysWithin_kbEntry (key : Bytes) :
    StaysWithin words initial run (Value.Within words) (do return (← readKb r key).getD .null) := by
  apply (staysWithin_readKb r key).bind
  intro v hv
  apply Effect.keeps_pure
  cases v with
  | none => exact nofun
  | some u => exact hv u rfl

/-- Whether the KB has an entry is data. -/
theorem staysWithin_kbPresence (key : Bytes) :
    StaysWithin words initial run (Value.Within words) (do return .bool (← readKb r key).isSome) :=
  (staysWithin_readKb r key).bind fun _ _ => staysWithin_data nofun

/-- `kb.get_scoped` stays within the words. -/
theorem staysWithin_kbGetScoped : StaysWithin words initial run (Value.Within words) (kbGetScoped r ctx) := by
  unfold kbGetScoped
  split
  · exact staysWithin_check _ fun key => staysWithin_kbEntry r key
  · exact Effect.keeps_throw _

/-- `kb.has_scoped` stays within the words. -/
theorem staysWithin_kbHasScoped : StaysWithin words initial run (Value.Within words) (kbHasScoped r ctx) := by
  unfold kbHasScoped
  split
  · exact staysWithin_check _ fun key => staysWithin_kbPresence r key
  · exact Effect.keeps_throw _

/-- Building a CVE result stays within the words. -/
theorem staysWithin_makeCveResult (result : VerificationResult) :
    StaysWithin words initial run (Value.Within words) (makeCveResult result) := by
  apply staysWithin_record
  simp [Value.IsData]

/-- `cve.verify` stays within the words. -/
theorem staysWithin_cveVerifyFn : StaysWithin words initial run (Value.Within words) (cveVerifyFn w ctx) := by
  unfold cveVerifyFn
  split
  · exact Effect.keeps_throw _
  · apply staysWithin_read
    intro o
    split
    · exact staysWithin_check _ fun id => staysWithin_check _ fun product => staysWithin_check _ fun version =>
        staysWithin_makeCveResult _
    · exact Effect.keeps_throw _
  · exact Effect.keeps_throw _

/-- Connecting stays within words that have `net::tcp` or those of an HTTP request. -/
theorem staysWithin_tcpConnect (e : Endpoint) (hwords : words (str "net::tcp") ∨ Requests words) :
    StaysWithin words initial run (fun _ => True) (tcpConnect w e.host e.port e.timeoutMs) := by
  unfold tcpConnect
  apply staysWithin_read
  intro connection
  have hevent : (NetEvent.connect e.host e.port e.timeoutMs).Allowed words := hwords
  exact (staysWithin_perform hevent w.net.connect).bind fun _ _ => Effect.keeps_pure trivial

/-- `net::tcp` stays within words that have it. -/
theorem staysWithin_netTcp (hword : words (str "net::tcp")) :
    StaysWithin words initial run (Value.Within words) (netTcp w ctx) := by
  unfold netTcp
  apply staysWithin_check
  intro e
  split
  · exact Effect.keeps_throw _
  · apply (staysWithin_tcpConnect w e (.inl hword)).bind
    intro tcp _
    apply staysWithin_dataObject
    · simp [Value.IsData]
    · simp [Native.word, Native.maker, hword]

/-- `net::http` stays within words that have it. -/
theorem staysWithin_netHttp (hword : words (str "net::http")) :
    StaysWithin words initial run (Value.Within words) (netHttp ctx) := by
  unfold netHttp
  apply staysWithin_check
  intro e
  split
  · exact Effect.keeps_throw _
  · apply staysWithin_dataObject
    · simp [Value.IsData]
    · simp [Native.word, Native.maker, hword]

/-- `net::tls` stays within words that have it. -/
theorem staysWithin_netTls (hword : words (str "net::tls")) :
    StaysWithin words initial run (Value.Within words) (netTls ctx) := by
  unfold netTls
  apply staysWithin_check
  intro e
  split
  · exact Effect.keeps_throw _
  · apply staysWithin_dataObject
    · simp [Value.IsData]
    · simp [Native.word, Native.maker, hword]

/-- Sending stays within words that have `net::tcp` and `send`, or those of an HTTP request. -/
theorem staysWithin_tcpSend (tcp : TcpState) (data : Bytes)
    (hwords : (words (str "net::tcp") ∧ words (str "send")) ∨ Requests words) :
    StaysWithin words initial run (fun _ => True) (tcpSend w tcp data) := by
  have hevent : (NetEvent.send tcp.connection data).Allowed words := hwords
  apply (staysWithin_perform hevent w.net.send).bind
  intro sent _
  cases sent with
  | none => exact Effect.keeps_fault _
  | some sent => exact Effect.keeps_pure trivial

/-- Receiving stays within words that have `net::tcp` and a receiving method, or those of an HTTP request. -/
theorem staysWithin_tcpReceive (tcp : TcpState) (timeoutMs : ℤ)
    (hwords : (words (str "net::tcp") ∧ (words (str "recv") ∨ words (str "recv_banner"))) ∨ Requests words) :
    StaysWithin words initial run (fun _ => True) (tcpReceive w tcp timeoutMs) := by
  have hevent : (NetEvent.receive tcp.connection timeoutMs).Allowed words := hwords
  refine (staysWithin_perform hevent w.net.receive).bind fun answer _ => ?_
  cases answer with
  | some data => exact Effect.keeps_pure trivial
  | none =>
    change StaysWithin words initial run _ (if timeoutMs < 0 then Effect.fault .noAnswer else pure [])
    split
    · exact Effect.keeps_fault _
    · exact Effect.keeps_pure trivial

/-- `send` stays within words that have `net::tcp` and `send`. -/
theorem staysWithin_tcpSendFn (tcp : TcpState) (hwords : words (str "net::tcp") ∧ words (str "send")) :
    StaysWithin words initial run (Value.Within words) (tcpSendFn w tcp ctx) := by
  unfold tcpSendFn
  apply staysWithin_check
  intro data
  split
  · exact (staysWithin_tcpSend w tcp data (.inl hwords)).bind fun _ _ => staysWithin_data nofun
  · exact staysWithin_data nofun

/-- `recv` and `recv_banner` stay within words that have `net::tcp` and one of them. -/
theorem staysWithin_tcpRecvFn (tcp : TcpState)
    (hwords : words (str "net::tcp") ∧ (words (str "recv") ∨ words (str "recv_banner"))) :
    StaysWithin words initial run (Value.Within words) (tcpRecvFn w tcp ctx) := by
  unfold tcpRecvFn
  apply staysWithin_check
  intro timeoutMs
  split
  · exact (staysWithin_tcpReceive w tcp timeoutMs (.inl hwords)).bind fun _ _ => staysWithin_data nofun
  · exact staysWithin_data nofun

/-- Reading a response chunk by chunk stays within the words of an HTTP request. -/
theorem staysWithin_receiveChunks (tcp : TcpState) (timeoutMs : ℤ) (hwords : Requests words) (budget : ℕ)
    (raw : Bytes) : StaysWithin words initial run (fun _ => True) (receiveChunks w tcp timeoutMs budget raw) := by
  induction budget generalizing raw with
  | zero => exact Effect.keeps_pure trivial
  | succ budget ih =>
    apply (staysWithin_tcpReceive w tcp timeoutMs (.inr hwords)).bind
    intro chunk _
    split
    · exact Effect.keeps_pure trivial
    · split
      · exact Effect.keeps_pure trivial
      · exact ih _

/-- `request` stays within the words of an HTTP request. -/
theorem staysWithin_httpRequestFn (e : Endpoint) (hwords : Requests words) :
    StaysWithin words initial run (Value.Within words) (httpRequestFn w e ctx) := by
  unfold httpRequestFn
  apply staysWithin_check
  intro request
  apply (staysWithin_tcpConnect w e (.inr hwords)).bind
  intro tcp _
  split
  · apply (staysWithin_tcpSend w tcp request (.inr hwords)).bind
    intro sent _
    split
    · apply (staysWithin_receiveChunks w tcp e.timeoutMs hwords 20 []).bind
      intro raw _
      split
      · exact staysWithin_data nofun
      · apply staysWithin_dataObject
        · simp
        · simp [Native.word, Native.maker]
    · exact staysWithin_data nofun
  · exact staysWithin_data nofun

/-- `handshake` stays within words that have `net::tls` and `handshake`. -/
theorem staysWithin_tlsHandshake (e : Endpoint) (hwords : words (str "net::tls") ∧ words (str "handshake")) :
    StaysWithin words initial run (Value.Within words) (do makeTlsReportObj (← tlsHandshake w e)) := by
  have hevent : (NetEvent.handshake e.host e.port e.timeoutMs).Allowed words := hwords
  have hhandshake : StaysWithin words initial run (fun _ => True) (tlsHandshake w e) := by
    refine (staysWithin_perform hevent w.net.handshake).bind fun answer _ => ?_
    cases answer with
    | some report => exact Effect.keeps_pure trivial
    | none => exact Effect.keeps_fault _
  apply hhandshake.bind
  intro report _
  apply staysWithin_record
  simp [Value.IsData]

/-- `exists` and `value` of a header stay within the words. -/
theorem staysWithin_headerField (name : Bytes) :
    StaysWithin words initial run (Value.Within words) (headerField name ctx) := by
  unfold headerField
  split
  · exact Effect.keeps_gets fun m hm => (hm.store.objects _).fields.getD name nofun
  · exact Effect.keeps_fault _

/-- `header` of a response stays within the words. -/
theorem staysWithin_responseHeader (response : RawHttpResponse) :
    StaysWithin words initial run (Value.Within words) (responseHeader response ctx) := by
  have hheader (found : Bool) (value : Bytes) :
      StaysWithin words initial run (Value.Within words) (makeHeaderObj found value) := by
    apply staysWithin_dataObject
    · simp [Value.IsData]
    · simp [Native.word, Native.maker]
  unfold responseHeader
  apply staysWithin_check
  intro name
  split
  · exact hheader true _
  · exact hheader false _

/-- A callback that may be called, other than `plugin.run`. -/
theorem staysWithin_callNative {op : Native} (hop : op.Allowed words) (hrun : ∀ r, op ≠ .pluginRun r)
    (hargs : Arguments.Within words ⟨ctx.positional, ctx.named⟩) (block : Option (Eval Unit)) :
    StaysWithin words initial run (Value.Within words) (callNative w op ctx block) := by
  cases op with
  | pluginName r => exact staysWithin_pluginSetter r ctx _ _
  | pluginDescription r => exact staysWithin_pluginSetter r ctx _ _
  | pluginCategory r => exact staysWithin_pluginSetter r ctx _ _
  | pluginFilter r => exact staysWithin_pluginFilter r ctx
  | pluginSetService r => exact staysWithin_pluginSetService r ctx hop.word hargs
  | pluginRun r => exact absurd rfl (hrun r)
  | finding r => exact staysWithin_findingFn w r ctx hop.word
  | kbSet r => exact staysWithin_kbSet r ctx hop.word hargs
  | kbGet r => exact staysWithin_check _ fun key => staysWithin_kbEntry r key
  | kbHas r => exact staysWithin_check _ fun key => staysWithin_kbPresence r key
  | kbSetScoped r => exact staysWithin_kbSetScoped r ctx hop.word hargs
  | kbGetScoped r => exact staysWithin_kbGetScoped r ctx
  | kbHasScoped r => exact staysWithin_kbHasScoped r ctx
  | cveCheck =>
    exact staysWithin_check _ fun id => staysWithin_check _ fun product => staysWithin_check _ fun version =>
      staysWithin_makeCveResult _
  | cveVerify => exact staysWithin_cveVerifyFn w ctx
  | cveLookup =>
    exact staysWithin_check _ fun product => staysWithin_check _ fun version => staysWithin_check _ fun product =>
      staysWithin_check _ fun version => staysWithin_data nofun
  | netTcp => exact staysWithin_netTcp w ctx hop.word
  | netHttp => exact staysWithin_netHttp ctx hop.word
  | netTls => exact staysWithin_netTls ctx hop.word
  | tcpConnected tcp => exact staysWithin_data nofun
  | tcpSend tcp => exact staysWithin_tcpSendFn w ctx tcp ⟨hop.maker _ rfl, hop.word⟩
  | tcpRecv tcp => exact staysWithin_tcpRecvFn w ctx tcp ⟨hop.maker _ rfl, .inl hop.word⟩
  | tcpRecvBanner tcp => exact staysWithin_tcpRecvFn w ctx tcp ⟨hop.maker _ rfl, .inr hop.word⟩
  | httpRequest e => exact staysWithin_httpRequestFn w ctx e ⟨hop.maker _ rfl, hop.word⟩
  | tlsHandshake e => exact staysWithin_tlsHandshake w e ⟨hop.maker _ rfl, hop.word⟩
  | headerExists => exact staysWithin_headerField ctx _
  | headerValue => exact staysWithin_headerField ctx _
  | responseStatus response => exact staysWithin_data nofun
  | responseBody response => exact staysWithin_data nofun
  | responseHeaders response => exact staysWithin_data nofun
  | responseHeader response => exact staysWithin_responseHeader ctx response

/-- `plugin.run` stays within the words when its block does. -/
theorem staysWithin_pluginRun {block : Option (Eval Unit)}
    (hblock : ∀ body ∈ block, StaysWithin words initial run (fun _ => True) body) :
    StaysWithin words initial run (Value.Within words) (pluginRun r ctx block) := by
  cases block with
  | none => exact Effect.keeps_throw _
  | some body =>
    apply staysWithin_read
    intro runs
    cases runs with
    | false => exact staysWithin_data nofun
    | true =>
      have hbody : StaysWithin words initial run (fun _ => True) (catchReturn (inGlobalScope body)) := by
        apply Effect.Keeps.tryCatch
        · exact (hblock body rfl).within (fun _ h => h.enterGlobal) fun _ _ h h' => h.restore h'
        · intro e
          cases e with
          | returned v => exact Effect.keeps_pure trivial
          | runtimeError e => exact Effect.keeps_throw _
      exact hbody.bind fun _ _ => staysWithin_data nofun

/-- An allowed callback stays within the words when its arguments are and its block does. -/
theorem staysWithin_invoke {fn : NativeFn} (hop : fn.op.Allowed words)
    (hargs : Arguments.Within words ⟨ctx.positional, ctx.named⟩) {block : Option (Eval Unit)}
    (hblock : ∀ body ∈ block, StaysWithin words initial run (fun _ => True) body) :
    StaysWithin words initial run (Value.Within words) (invoke w fn ctx block) := by
  apply Effect.Keeps.bind (P := fun _ => True) (Effect.keeps_modify fun _ hm => hm.record fn ctx)
  intro _ _
  by_cases hrun : ∃ r, fn.op = .pluginRun r
  · obtain ⟨r, hr⟩ := hrun
    rw [hr]
    exact staysWithin_pluginRun r ctx hblock
  · exact staysWithin_callNative w ctx hop (not_exists.mp hrun) hargs block

end Callbacks

/-- No arguments are within the words. -/
theorem Arguments.within_empty : Arguments.Within words {} := ⟨by simp, Env.within_empty⟩

/-- One more argument within the words keeps the arguments within them. -/
theorem Arguments.Within.push {args : Arguments} (h : args.Within words) (name : Bytes) {v : Value}
    (hv : v.Within words) : (args.push name v).Within words := by
  rw [Arguments.push]
  split
  · exact ⟨List.forall_mem_append.mpr ⟨h.positional, List.forall_mem_singleton.mpr hv⟩, h.named⟩
  · exact ⟨h.positional, h.named.set hv name⟩

/-- The result of an operation that returns no functions. -/
theorem staysWithin_operation {x : Except RuntimeError Value} (h : ∀ fn, x ≠ .ok (.function fn)) :
    StaysWithin words initial run (Value.Within words) (orThrow x) := by
  apply (staysWithin_orThrow x).mono
  intro v hv fn hfn
  subst hfn
  exact absurd hv (h fn)

/-- Reading a variable that is among the words stays within them. -/
theorem staysWithin_readVariable {name : Bytes} (hname : words name) (msg : Bytes) (pos : Pos) :
    StaysWithin words initial run (Value.Within words) (readVariable name msg pos) := by
  have hlookup : StaysWithin words initial run (fun found => ∀ v, found = some v → Value.Within words v)
      (Effect.gets fun m => lookup m.globals m.locals name) :=
    Effect.keeps_gets fun m hm v hv => lookup_within hm.globals hm.locals hname hv
  apply hlookup.bind
  intro found hfound
  cases found with
  | none => exact Effect.keeps_throw _
  | some v => exact Effect.keeps_pure (hfound v rfl)

/-- A method that is taken by its word may be called. -/
theorem Object.Within.allowed {o : Object} (h : o.Within words) {name : Bytes} {fn : NativeFn}
    (hfn : o.methods name = some fn) (hname : words name) : fn.op.Allowed words := by
  obtain ⟨hword, hmaker⟩ := h.methods name fn hfn
  exact ⟨hword ▸ hname, hmaker⟩

/-- What is read of an object is within the words. -/
theorem staysWithin_readObject (address : ℕ) :
    StaysWithin words initial run (Object.Within words) (readStore (·.objects address)) :=
  Effect.keeps_gets fun _ hm => hm.store.objects address

/-- Reading a member that is among the words stays within them. -/
theorem staysWithin_memberOf (receiver : Value) {member : Bytes} (hmember : words member) (pos : Pos) :
    StaysWithin words initial run (Value.Within words) (memberOf receiver member pos) := by
  cases receiver with
  | object address =>
    apply (staysWithin_readObject address).bind
    intro o ho
    split
    · next v _ hv => exact Effect.keeps_pure (ho.fields _ _ hv)
    · next fn _ hfn =>
      apply Effect.keeps_pure
      intro fn' hfn'
      cases hfn'
      exact ho.allowed hfn hmember
    · exact Effect.keeps_throw _
  | _ => exact Effect.keeps_throw _

section Calls

variable (w : World) {args : Arguments} (hargs : args.Within words) {block : Option (Eval Unit)}
  (hblock : ∀ body ∈ block, StaysWithin words initial run (fun _ => True) body) (pos : Pos)

include hargs hblock

/-- Calling a method that is among the words stays within them. -/
theorem staysWithin_invokeMethod (receiver : Value) {method : Bytes} (hmethod : words method) :
    StaysWithin words initial run (Value.Within words) (invokeMethod w receiver method args block pos) := by
  cases receiver with
  | string s => exact staysWithin_operation (callStringMethod_ne_function s method args.positional pos)
  | object address =>
    apply (staysWithin_readObject address).bind
    intro o ho
    split
    · next fn hfn => exact staysWithin_invoke w _ (ho.allowed hfn hmethod) hargs hblock
    · exact Effect.keeps_throw _
  | _ => exact Effect.keeps_throw _

/-- Calling a value within the words stays within them. -/
theorem staysWithin_invokeFunction {callee : Value} (hcallee : callee.Within words) :
    StaysWithin words initial run (Value.Within words) (invokeFunction w callee args block pos) := by
  cases callee with
  | function fn => exact staysWithin_invoke w _ (hcallee fn rfl) hargs hblock
  | _ => exact Effect.keeps_throw _

end Calls

section Evaluation

variable (w : World)

mutual

/-- An expression stays within the reach of its words. -/
theorem staysWithin_expr : ∀ e : Expr, (∀ x ∈ e.words, words x) →
    StaysWithin words initial run (Value.Within words) (evalExpr w e)
  | .null _, _ => staysWithin_data nofun
  | .bool _ _, _ => staysWithin_data nofun
  | .number _ _, _ => staysWithin_data nofun
  | .string _ _, _ => staysWithin_data nofun
  | .ident _ name, h => staysWithin_readVariable (h name (List.mem_singleton_self _)) _ _
  | .scoped _ scope name, h => staysWithin_readVariable (h _ (List.mem_singleton_self _)) _ _
  | .member _ object member, h => by
    obtain ⟨hmember, hobject⟩ := List.forall_mem_cons.mp h
    exact (staysWithin_expr object hobject).bind fun v _ => staysWithin_memberOf v hmember _
  | .call pos callee args block, h => by
    obtain ⟨hcallee, h⟩ := List.forall_mem_append.mp h
    obtain ⟨hargs, hblock⟩ := List.forall_mem_append.mp h
    have hplain := (staysWithin_args args hargs Arguments.within_empty).bind fun args' hargs' =>
      (staysWithin_expr callee hcallee).bind fun v hv =>
        staysWithin_invokeFunction w hargs' (staysWithin_block block hblock) pos hv
    cases callee with
    | member _ object method =>
      obtain ⟨hmethod, hobject⟩ := List.forall_mem_cons.mp hcallee
      exact (staysWithin_args args hargs Arguments.within_empty).bind fun args' hargs' =>
        (staysWithin_expr object hobject).bind fun v _ =>
          staysWithin_invokeMethod w hargs' (staysWithin_block block hblock) pos v hmethod
    | _ => exact hplain
  | .unary pos op operand, h =>
    (staysWithin_expr operand h).bind fun v _ => staysWithin_operation (applyUnary_ne_function op v pos)
  | .binary pos op lhs rhs, h => by
    obtain ⟨hlhs, hrhs⟩ := List.forall_mem_append.mp h
    have hr := staysWithin_expr rhs hrhs
    apply (staysWithin_expr lhs hlhs).bind
    intro l hl
    have hboth (hop : op ≠ .and ∧ op ≠ .or) : StaysWithin words initial run (Value.Within words) (do
        let r ← evalExpr w rhs
        let result ← readStore fun s => applyBinary s op l r pos
        orThrow result) := by
      apply hr.bind
      intro r _
      apply Effect.Keeps.bind (P := fun x : Except RuntimeError Value => ∀ fn, x ≠ .ok (.function fn))
      · exact Effect.keeps_gets fun m _ => applyBinary_ne_function m.store hop l r pos
      · exact fun x hx => staysWithin_operation hx
    cases op with
    | and =>
      change StaysWithin words initial run (Value.Within words) (if isTruthy l then evalExpr w rhs else pure l)
      split
      · exact hr
      · exact Effect.keeps_pure hl
    | or =>
      change StaysWithin words initial run (Value.Within words) (if isTruthy l then pure l else evalExpr w rhs)
      split
      · exact Effect.keeps_pure hl
      · exact hr
    | _ => exact hboth ⟨nofun, nofun⟩

/-- Arguments stay within the words they are written with. -/
theorem staysWithin_args : ∀ args : List CallArg, (∀ x ∈ argsWords args, words x) →
    ∀ {done : Arguments}, done.Within words →
      StaysWithin words initial run (Arguments.Within words) (evalArgs w args done)
  | [], _, _, hdone => Effect.keeps_pure hdone
  | .mk name value :: args, h, _, hdone => by
    obtain ⟨hvalue, hargs⟩ := List.forall_mem_append.mp h
    exact (staysWithin_expr value hvalue).bind fun v hv => staysWithin_args args hargs (hdone.push name hv)

/-- A block stays within the words it is written with. -/
theorem staysWithin_block : ∀ block : Option (List Stmt), (∀ x ∈ blockWords block, words x) →
    ∀ body ∈ evalBlock w block, StaysWithin words initial run (fun _ => True) body
  | none, _, _, hbody => nomatch hbody
  | some stmts, h, _, hbody => by
    cases hbody
    exact staysWithin_stmts stmts h

/-- So does a statement. -/
theorem staysWithin_stmt : ∀ s : Stmt, (∀ x ∈ s.words, words x) →
    StaysWithin words initial run (fun _ => True) (execStmt w s)
  | .includeModule _ _, _ => Effect.keeps_pure trivial
  | .expr _ value, h => (staysWithin_expr value h).bind fun _ _ => Effect.keeps_pure trivial
  | .assign _ name value, h =>
    (staysWithin_expr value h).bind fun _ hv => Effect.keeps_modify fun _ hm => hm.assign name hv
  | .ifThen _ condition thenBranch elseBranch, h => by
    obtain ⟨hcondition, h⟩ := List.forall_mem_append.mp h
    obtain ⟨hthen, helse⟩ := List.forall_mem_append.mp h
    have hscope {body : Eval Unit} (hbody : StaysWithin words initial run (fun _ => True) body) :
        StaysWithin words initial run (fun _ => True) (inBlockScope body) :=
      hbody.within (fun _ hm => hm.push) fun _ _ _ hm => hm.pop
    have hthen := hscope (staysWithin_stmts thenBranch hthen)
    have helse := hscope (staysWithin_stmts elseBranch helse)
    apply (staysWithin_expr condition hcondition).bind
    intro cond _
    split
    · exact hthen
    · split
      · exact Effect.keeps_pure trivial
      · exact helse
  | .ret _ value, h => (staysWithin_returnValue value h).bind fun _ _ => Effect.keeps_throw _

/-- A return value stays within the words it is written with. -/
theorem staysWithin_returnValue : ∀ value : Option Expr, (∀ x ∈ valueWords value, words x) →
    StaysWithin words initial run (fun _ => True) (evalReturnValue w value)
  | none, _ => Effect.keeps_pure trivial
  | some value, h => (staysWithin_expr value h).mono fun _ _ => trivial

/-- Statements stay within the words they are written with. -/
theorem staysWithin_stmts : ∀ stmts : List Stmt, (∀ x ∈ stmtsWords stmts, words x) →
    StaysWithin words initial run (fun _ => True) (execStmts w stmts)
  | [], _ => Effect.keeps_pure trivial
  | s :: stmts, h => by
    obtain ⟨hs, hstmts⟩ := List.forall_mem_append.mp h
    exact (staysWithin_stmt s hs).bind fun _ _ => staysWithin_stmts stmts hstmts

end

end Evaluation

/-- A function of the library stands under its own word. -/
theorem staysWithin_newFunction {op : Native} (hmaker : op.maker = none) : StaysWithin words initial run
    (fun v => ∃ fn, v = .function fn ∧ fn.op.word = op.word ∧ fn.op.maker = none) (newFunction op) := by
  apply staysWithin_read
  intro id
  apply Effect.Keeps.bind (P := fun _ => True)
  · exact Effect.keeps_modify fun _ hm => hm.withStore ⟨hm.store.kb, hm.store.objects, hm.store.history,
      hm.store.unwritten⟩ rfl
  · exact fun _ _ => Effect.keeps_pure ⟨_, rfl, rfl, hmaker⟩

/-- Defining a global stays within the words when its value is within them or stands under its own word. -/
theorem staysWithin_defineGlobal {name : Bytes} {make : Eval Value} (h : StaysWithin words initial run
    (fun v => v.Within words ∨ ∃ fn, v = .function fn ∧ fn.op.word = name ∧ fn.op.maker = none) make) :
    StaysWithin words initial run (fun _ => True) (defineGlobal name make) :=
  h.bind fun _ hv => Effect.keeps_modify fun _ hm => ⟨hm.globals.set hv, hm.locals, hm.store, hm.run⟩

/-- Building the target object stays within the words. -/
theorem staysWithin_makeTargetObj (r : ℕ) : StaysWithin words initial run (Value.Within words) (makeTargetObj r) := by
  have hknown {v : Option Value} (hv : ∀ u, v = some u → u.Within words) : (v.getD (.string [])).Within words := by
    cases v with
    | none => exact nofun
    | some u => exact hv u rfl
  apply staysWithin_read
  intro state
  apply (staysWithin_readKb r (str "product")).bind
  intro product hproduct
  apply (staysWithin_readKb r (str "version")).bind
  intro version hversion
  apply Effect.Keeps.bind (P := Value.Within words)
  · apply staysWithin_newObject _ (by simp)
    intro x hx
    simp only [List.mem_cons, List.not_mem_nil, or_false] at hx
    rcases hx with rfl | rfl | rfl | rfl | rfl
    · exact nofun
    · exact nofun
    · exact nofun
    · exact hknown hproduct
    · exact hknown hversion
  · intro target htarget
    refine Effect.Keeps.bind (staysWithin_changeRun r ?_) fun _ _ => Effect.keeps_pure htarget
    exact fun _ h => ⟨h.service, h.findings⟩

/-- The library offers its callbacks under their words. -/
theorem staysWithin_registerStdlib (r : ℕ) : StaysWithin words initial run (fun _ => True) (registerStdlib r) := by
  have hnext {p q : Eval Unit} (hp : StaysWithin words initial run (fun _ => True) p)
      (hq : StaysWithin words initial run (fun _ => True) q) :
      StaysWithin words initial run (fun _ => True) (p >>= fun _ => q) := hp.bind fun _ _ => hq
  have hobject (name typeName : Bytes) {methods : List (Bytes × Native)}
      (hmethods : ∀ x ∈ methods, x.2.word = x.1 ∧ ∀ y ∈ x.2.maker, words y) :
      StaysWithin words initial run (fun _ => True) (defineGlobal name (newObject typeName [] methods)) :=
    staysWithin_defineGlobal ((staysWithin_newObject (by simp) hmethods).mono fun _ => .inl)
  have hfunction {op : Native} (hmaker : op.maker = none) :
      StaysWithin words initial run (fun _ => True) (defineGlobal op.word (newFunction op)) :=
    staysWithin_defineGlobal ((staysWithin_newFunction hmaker).mono fun _ => .inr)
  apply hnext (hobject _ _ (by simp [pluginMethods, Native.word, Native.maker]))
  apply hnext (staysWithin_defineGlobal ((staysWithin_makeTargetObj r).mono fun _ => .inl))
  apply hnext (@hfunction (.finding r) rfl)
  apply hnext (hobject _ _ (by simp [Native.word, Native.maker]))
  apply hnext (hobject _ _ (by simp [Native.word, Native.maker]))
  apply hnext (@hfunction .cveLookup rfl)
  apply hnext (@hfunction .netTcp rfl)
  apply hnext (@hfunction .netHttp rfl)
  exact @hfunction .netTls rfl

section Run

variable {w : World} {p : LoadedPlugin} {host : Bytes} {port : ℤ} {known : Bytes} {hasKb : Bool} {s s' : Store}
  {r : RunOutcome}

/-- The machine in which a run begins. -/
theorem initialMachine_within (hs : s.Within words initial) :
    (initialMachine p host port known hasKb s).Within words initial s.nextRun where
  globals := nofun
  locals := nofun
  store := ⟨hs.kb, hs.objects, List.forall_mem_cons.mpr ⟨trivial, hs.history⟩, hs.unwritten⟩
  run := by
    have hstate : (initialMachine p host port known hasKb s).store.runs s.nextRun =
        freshRun host port known hasKb := update_self ..
    rw [hstate]
    exact ⟨.inr ⟨rfl, rfl, rfl⟩, .inr rfl⟩

/-- What a run returns, and the store that it leaves, stay within the reach of its words. -/
theorem runPlugin_within (hwords : ∀ x ∈ p.words, words x) (hs : s.Within words initial)
    (h : runPlugin w p host port known hasKb s = some (r, s')) :
    s'.Within words initial ∧
      (words (str "set_service") ∨ r.detectedService = [] ∧ r.detectedProduct = [] ∧ r.detectedVersion = []) ∧
      (words (str "finding") ∨ ∀ f ∈ r.findings, f.severity = str "debug" ∧ f.title = str "Plugin runtime error") := by
  have hinterpret : StaysWithin words initial s.nextRun (fun _ => True) (interpretPlugin w p s.nextRun) :=
    (staysWithin_registerStdlib s.nextRun).bind fun _ _ => staysWithin_stmts w p.program.statements hwords
  have hend : (interpretation w p host port known hasKb s).state.Within words initial s.nextRun :=
    (hinterpret _ (initialMachine_within hs)).1
  obtain ⟨m, hran⟩ := exists_ran h
  obtain ⟨late, hlate, rfl, rfl⟩ := hran.outcome
  refine ⟨⟨hend.store.kb, hend.store.objects, hend.store.history, hend.store.unwritten⟩, ?_, ?_⟩
  · simpa [RunState.outcome, Store.withRun] using hend.run.service
  · refine hend.run.findings.imp_right fun hnone f hf => ?_
    have hmem : f ∈ late := by simpa [RunState.outcome, Store.withRun, hnone] using hf
    rcases hlate with rfl | ⟨state, what, rfl⟩
    · cases hmem
    · rw [List.mem_singleton.mp hmem]
      exact ⟨rfl, rfl⟩

end Run

end Within

/-- Some plugin has a word. -/
def Speaks (plugins : List LoadedPlugin) (x : Bytes) : Prop := ∃ p ∈ plugins, x ∈ p.words

/-- What the runs on a port have done, as far as some words reach. -/
structure PortRun.Within (words : Bytes → Prop) (initialService : Bytes) (st : PortRun) : Prop where
  store : st.store.Within words (PortRun.initial initialService).store.kb
  info : words (str "set_service") ∨ st.info = { service := initialService }
  findings : words (str "finding") ∨
    ∀ f ∈ st.findings, f.severity = str "debug" ∧ f.title = str "Plugin runtime error"

section Port

variable {w : World} {plugins : List LoadedPlugin} {host : Bytes} {port : ℤ} {initialService : Bytes}
  {words : Bytes → Prop} {st st' : PortRun} {p : LoadedPlugin}

/-- The state a port starts with is within the words. -/
theorem PortRun.initial_within : (PortRun.initial initialService).Within words initialService where
  store := {
    kb := by
      rw [PortRun.initial]
      dsimp only
      split
      · exact Env.within_empty
      · have hservice : Value.Within words (.string initialService) := nofun
        exact Env.within_empty.set hservice _
    objects := fun _ => ⟨Env.within_empty, fun _ _ hfn => nomatch hfn⟩
    history := nofun
    unwritten := .inr rfl }
  info := .inr rfl
  findings := .inr nofun

/-- One plugin keeps the state of the port within words it is written with. -/
theorem PortRun.Within.step (h : st.Within words initialService) (hwords : ∀ x ∈ p.words, words x)
    (hstep : st.step w host port p = some st') : st'.Within words initialService := by
  obtain ⟨call, hcall, rfl⟩ := Option.map_eq_some_iff.mp hstep
  obtain ⟨⟨r, s'⟩, hrun, rfl⟩ := Option.map_eq_some_iff.mp hcall
  obtain ⟨hstore, hservice, hfindings⟩ := runPlugin_within hwords h.store hrun
  refine ⟨hstore, ?_, ?_⟩
  · rcases hservice with hword | ⟨hservice, hproduct, hversion⟩
    · exact .inl hword
    · refine h.info.imp_right fun hinfo => ?_
      change st.info.absorb r = _
      rw [DetectedInfo.absorb, hservice, hproduct, hversion]
      exact hinfo
  · rcases hfindings with hword | hfindings
    · exact .inl hword
    · refine h.findings.imp_right fun hold f hf => ?_
      exact (List.mem_append.mp hf).elim (hold f) (hfindings f)

/-- What happens on a port stays within the reach of the words of its plugins, whatever they hand to each other. -/
theorem runForPort_within (h : runForPort w plugins host port initialService = some st) :
    st.Within (Speaks plugins) initialService := by
  rw [runForPort_eq_foldlM] at h
  apply foldlM_invariant (P := fun st : PortRun => st.Within (Speaks plugins) initialService) _ PortRun.initial_within h
  intro st visit hvisit st' hst htaken
  rcases PortRun.visit_cases htaken with rfl | hstep
  · exact hst
  · refine hst.step (fun x hx => ⟨visit.2, ?_, hx⟩) hstep
    rcases List.mem_append.mp hvisit with hmem | hmem
    · obtain ⟨p, hp, rfl⟩ := List.mem_map.mp hmem
      exact hp
    · obtain ⟨p, hp, rfl⟩ := List.mem_map.mp hmem
      exact hp

/-- What happens on a port is bounded by the words of the plugins that run on it: an event of the network needs the
words for it, the KB is written, a service is claimed and a finding is made with the words for that only. -/
theorem runForPort_needs_words (h : runForPort w plugins host port initialService = some st) :
    (∀ e ∈ st.store.history, e.Allowed (Speaks plugins)) ∧
      (¬WritesKb (Speaks plugins) → st.store.kb = (PortRun.initial initialService).store.kb) ∧
      (¬Speaks plugins (str "set_service") → st.info = { service := initialService }) ∧
      (¬Speaks plugins (str "finding") →
        ∀ f ∈ st.findings, f.severity = str "debug" ∧ f.title = str "Plugin runtime error") := by
  have hwithin := runForPort_within h
  exact ⟨hwithin.store.history, hwithin.store.unwritten.resolve_left, hwithin.info.resolve_left,
    hwithin.findings.resolve_left⟩

end Port

/-- A plugin that leaves a callback in the KB, and one that calls it. -/
def handedOver : List (Bytes × Bytes) :=
  [(str "first.ztl", str "plugin.filter(any: true); plugin.run \x7b kb.set(\"open\", net::tcp); \x7d"),
    (str "second.ztl", str "plugin.run \x7b f = kb.get(\"open\"); f(host: target.host, port: 22).oops(); \x7d")]

/-- A plugin that speaks of neither findings nor services leaves a debug finding and no claim. -/
theorem runForPort_needs_words_sample : ∃ plugins st,
    loadPluginsDir ⟨silentNetwork, []⟩ (str "plugins") handedOver = some plugins ∧
    runForPort ⟨silentNetwork, []⟩ plugins (str "10.0.0.1") 22 [] = some st ∧
    st.store.history.length = 3 ∧ st.findings.length = 1 ∧
    (∀ e ∈ st.store.history, e.Allowed (Speaks plugins)) ∧ st.info = {} ∧
    ∀ f ∈ st.findings, f.severity = str "debug" ∧ f.title = str "Plugin runtime error" := by
  have hruns : ((loadPluginsDir ⟨silentNetwork, []⟩ (str "plugins") handedOver).any fun plugins =>
      (∀ p ∈ plugins, str "set_service" ∉ p.words ∧ str "finding" ∉ p.words) &&
        (runForPort ⟨silentNetwork, []⟩ plugins (str "10.0.0.1") 22 []).any fun st =>
          st.store.history.length == 3 && st.findings.length == 1) = true := by
    decide +kernel
  obtain ⟨plugins, hload, hchecks⟩ := (Option.any_eq_true _ _).mp hruns
  obtain ⟨hwords, hruns⟩ := Bool.and_eq_true_iff.mp hchecks
  obtain ⟨st, hrun, hchecks⟩ := (Option.any_eq_true _ _).mp hruns
  obtain ⟨hevents, hfound⟩ := Bool.and_eq_true_iff.mp hchecks
  have hwords := of_decide_eq_true hwords
  obtain ⟨hhistory, -, hinfo, hfindings⟩ := runForPort_needs_words hrun
  refine ⟨plugins, st, hload, hrun, beq_iff_eq.mp hevents, beq_iff_eq.mp hfound, hhistory, hinfo ?_, hfindings ?_⟩
  · rintro ⟨p, hp, hword⟩
    exact (hwords p hp).1 hword
  · rintro ⟨p, hp, hword⟩
    exact (hwords p hp).2 hword

end ZeroTrust.Ztl
