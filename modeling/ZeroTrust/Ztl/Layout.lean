import ZeroTrust.Lib.SideBySide
import ZeroTrust.Ztl.Execution
import ZeroTrust.Ztl.Runner

/-!
# Runs of programs that differ in their layout

Lines and columns reach nothing but the texts of errors, and those reach nothing but the debug
finding of the run. Two programs that differ in positions are run side by side: their variables,
objects and KB are equal throughout, the network is asked the same, and a run that stops on an
error stops in the same place of both with the same message. The network must not see the
positions either; it gets the loaded plugin only as a mark at the start of a run.
-/

namespace ZeroTrust.Ztl

open Function (update)

/-- The plugin without positions. -/
def LoadedPlugin.erase (p : LoadedPlugin) : LoadedPlugin := { p with program := p.program.erase }

/-- The event without positions. -/
def NetEvent.erase : NetEvent → NetEvent
  | .start plugin host port => .start plugin.erase host port
  | e => e

/-- The answers of the network do not depend on positions. -/
structure World.Blind (w : World) : Prop where
  connect : ∀ h h', h.map NetEvent.erase = h'.map NetEvent.erase → w.net.connect h = w.net.connect h'
  send : ∀ h h', h.map NetEvent.erase = h'.map NetEvent.erase → w.net.send h = w.net.send h'
  receive : ∀ h h', h.map NetEvent.erase = h'.map NetEvent.erase → w.net.receive h = w.net.receive h'
  handshake : ∀ h h', h.map NetEvent.erase = h'.map NetEvent.erase → w.net.handshake h = w.net.handshake h'
  clock : ∀ h h', h.map NetEvent.erase = h'.map NetEvent.erase → w.net.clock h = w.net.clock h'

/-- Errors with the same message. -/
inductive RuntimeError.Alike : RuntimeError → RuntimeError → Prop
  | at (pos pos' : Pos) (msg : Bytes) : Alike (errorAt pos msg) (errorAt pos' msg)

/-- Exceptions that differ at most in the place of an error. -/
inductive Exn.Alike : Exn → Exn → Prop
  | returned (v : Value) : Alike (.returned v) (.returned v)
  | runtimeError {e e' : RuntimeError} (h : e.Alike e') : Alike (.runtimeError e) (.runtimeError e')

/-- Findings that are equal, or report one run-time error at two places. -/
inductive FindingOut.Alike : FindingOut → FindingOut → Prop
  | same (f : FindingOut) : Alike f f
  | error (p : LoadedPlugin) (state : RunState) (port : ℤ) {e e' : RuntimeError} (h : e.Alike e') :
      Alike (errorFinding p state port e.what) (errorFinding p state port e'.what)

/-- States of a run that differ at most in the places of errors. -/
structure RunState.Alike (s s' : RunState) : Prop where
  rest : { s with findings := [] } = { s' with findings := [] }
  findings : List.Forall₂ FindingOut.Alike s.findings s'.findings

/-- Stores that differ at most in positions. -/
structure Store.Alike (s s' : Store) : Prop where
  kb : s.kb = s'.kb
  objects : s.objects = s'.objects
  next : s.next = s'.next
  runs : ∀ run, (s.runs run).Alike (s'.runs run)
  nextRun : s.nextRun = s'.nextRun
  history : s.history.map NetEvent.erase = s'.history.map NetEvent.erase

/-- Machines that differ at most in positions; the recorded calls do not matter. -/
structure Machine.Alike (m m' : Machine) : Prop where
  globals : m.globals = m'.globals
  locals : m.locals = m'.locals
  store : m.store.Alike m'.store

/-- Computations of the interpreter that differ at most in positions. -/
abbrev Eval.Alike {α β : Type} (V : α → β → Prop) (p : Eval α) (q : Eval β) : Prop :=
  Effect.Alike Machine.Alike Exn.Alike V p q

/-- Calls at two places. -/
structure CallContext.Alike (ctx ctx' : CallContext) : Prop where
  self : ctx.self = ctx'.self
  positional : ctx.positional = ctx'.positional
  named : ctx.named = ctx'.named

/-- Checks with the same result, or with the same error at two places. -/
inductive ChecksAlike {α : Type} : Except RuntimeError α → Except RuntimeError α → Prop
  | ok (a : α) : ChecksAlike (.ok a) (.ok a)
  | error {e e' : RuntimeError} (h : e.Alike e') : ChecksAlike (.error e) (.error e')

/-- Contexts that differ in their position only are alike. -/
theorem callContext_alike (self : Value) (positional : List Value) (named : Env) (pos pos' : Pos) :
    CallContext.Alike ⟨self, positional, named, pos⟩ ⟨self, positional, named, pos'⟩ := ⟨rfl, rfl, rfl⟩

/-- Findings are alike to themselves. -/
theorem FindingOut.alike_refl (fs : List FindingOut) : List.Forall₂ FindingOut.Alike fs fs :=
  List.forall₂_same.mpr fun f _ => .same f

/-- A run's state is alike to itself. -/
theorem RunState.Alike.refl (s : RunState) : s.Alike s := ⟨rfl, FindingOut.alike_refl s.findings⟩

/-- A store is alike to itself. -/
theorem Store.Alike.refl (s : Store) : s.Alike s := ⟨rfl, rfl, rfl, fun _ => .refl _, rfl, rfl⟩

/-- A part of the state of a run that is not its findings. -/
theorem RunState.Alike.get {s s' : RunState} (h : s.Alike s') {β : Type} {f : RunState → β}
    (hf : ∀ s, f s = f { s with findings := [] }) : f s = f s' := by
  rw [hf s, h.rest, ← hf s']

/-- A change that leaves the findings alone. -/
theorem RunState.Alike.change {s s' : RunState} (h : s.Alike s') {f : RunState → RunState}
    (hfindings : ∀ s, (f s).findings = s.findings)
    (hf : ∀ s, { f s with findings := [] } = f { s with findings := [] }) : (f s).Alike (f s') := by
  refine ⟨?_, ?_⟩
  · rw [hf, hf, h.rest]
  · rw [hfindings, hfindings]
    exact h.findings

namespace Store.Alike

variable {s s' : Store}

/-- The same change of a run keeps stores alike. -/
theorem withRun (h : s.Alike s') (run : ℕ) {f g : RunState → RunState}
    (hf : ∀ state state', state.Alike state' → (f state).Alike (g state')) :
    (s.withRun run f).Alike (s'.withRun run g) where
  kb := h.kb
  objects := h.objects
  next := h.next
  runs other := by
    by_cases hother : other = run
    · subst hother
      simp only [Store.withRun, Function.update_self]
      exact hf _ _ (h.runs other)
    · simp only [Store.withRun, Function.update_of_ne hother]
      exact h.runs other
  nextRun := h.nextRun
  history := h.history

/-- The same new object keeps stores alike. -/
theorem alloc (h : s.Alike s') (id : ℕ) (o : Object) :
    ({ s with next := id }.alloc o).Alike ({ s' with next := id }.alloc o) where
  kb := h.kb
  objects := by simp only [Store.alloc, h.objects]
  next := rfl
  runs := h.runs
  nextRun := h.nextRun
  history := h.history

/-- The same next address keeps stores alike. -/
theorem setNext (h : s.Alike s') (id : ℕ) : { s with next := id }.Alike { s' with next := id } where
  kb := h.kb
  objects := h.objects
  next := rfl
  runs := h.runs
  nextRun := h.nextRun
  history := h.history

/-- The same key of the KB keeps stores alike. -/
theorem setKb (h : s.Alike s') (key : Bytes) (v : Value) :
    { s with kb := s.kb.set key v }.Alike { s' with kb := s'.kb.set key v } where
  kb := congrArg (Env.set · key v) h.kb
  objects := h.objects
  next := h.next
  runs := h.runs
  nextRun := h.nextRun
  history := h.history

/-- The same network event keeps stores alike. -/
theorem event (h : s.Alike s') (e : NetEvent) :
    { s with history := e :: s.history }.Alike { s' with history := e :: s'.history } where
  kb := h.kb
  objects := h.objects
  next := h.next
  runs := h.runs
  nextRun := h.nextRun
  history := congrArg (e.erase :: ·) h.history

/-- The same claim keeps stores alike. -/
theorem claim (h : s.Alike s') (run : ℕ) (svc : Bytes) (named : Env) :
    (s.claim run svc named).Alike (s'.claim run svc named) where
  kb := by
    have hkb : (s.runs run).hasKb = (s'.runs run).hasKb := (h.runs run).get fun _ => rfl
    simp only [Store.claim, hkb, h.kb]
  objects := by
    have htarget : (s.runs run).target = (s'.runs run).target := (h.runs run).get fun _ => rfl
    simp only [Store.claim, htarget, h.objects]
  next := h.next
  runs := h.runs
  nextRun := h.nextRun
  history := h.history

/-- A machine without variables. -/
theorem machine (h : s.Alike s') : Machine.Alike { store := s } { store := s' } := ⟨rfl, rfl, h⟩

/-- A value is printed from the objects alone. -/
theorem valueToString_eq (h : s.Alike s') (v : Value) : valueToString s v = valueToString s' v := by
  cases v with
  | object address => simp only [valueToString, h.objects]
  | _ => rfl

end Store.Alike

section Checks

variable {α β : Type} {ctx ctx' : CallContext} (pos pos' : Pos)

/-- Errors with one message are alike. -/
theorem checksAlike_error (msg : Bytes) :
    ChecksAlike (.error (errorAt pos msg) : Except RuntimeError α) (.error (errorAt pos' msg)) :=
  .error ⟨pos, pos', msg⟩

/-- Checks in a row are alike when each is. -/
theorem ChecksAlike.bind {x x' : Except RuntimeError α} {k k' : α → Except RuntimeError β} (h : ChecksAlike x x')
    (hk : ∀ a, ChecksAlike (k a) (k' a)) : ChecksAlike (x >>= k) (x' >>= k') := by
  cases h with
  | ok a => exact hk a
  | error h => exact .error h

/-- The check for a string is alike everywhere. -/
theorem needString_alike (v : Value) (what : Bytes) : ChecksAlike (needString v what pos) (needString v what pos') := by
  cases v with
  | string s => exact .ok s
  | _ => exact checksAlike_error _ _ _

/-- The check for a number is alike everywhere. -/
theorem needInt_alike (v : Value) (what : Bytes) : ChecksAlike (needInt v what pos) (needInt v what pos') := by
  cases v with
  | number q => exact .ok _
  | _ => exact checksAlike_error _ _ _

/-- The check of a string argument is alike everywhere. -/
theorem stringArgument_alike (args : List Value) (i : ℕ) (what : Bytes) :
    ChecksAlike (stringArgument args i what pos) (stringArgument args i what pos') := by
  unfold stringArgument
  split
  · exact checksAlike_error _ _ _
  · exact .ok _
  · exact checksAlike_error _ _ _

/-- The check of a number argument is alike everywhere. -/
theorem numberArgument_alike (args : List Value) (i : ℕ) (what : Bytes) :
    ChecksAlike (numberArgument args i what pos) (numberArgument args i what pos') := by
  unfold numberArgument
  split
  · exact checksAlike_error _ _ _
  · exact .ok _
  · exact checksAlike_error _ _ _

/-- `slice` is alike everywhere. -/
theorem sliceString_alike (s : Bytes) (args : List Value) :
    ChecksAlike (sliceString s args pos) (sliceString s args pos') := by
  refine (numberArgument_alike pos pos' args 0 _).bind fun start => ?_
  by_cases hlength : args.length > 1
  · simp only [if_pos hlength]
    exact (numberArgument_alike pos pos' args 1 _).bind fun e => .ok _
  · simp only [if_neg hlength]
    exact .ok _

/-- `byte_at` is alike everywhere. -/
theorem byteAt_alike (s : Bytes) (args : List Value) : ChecksAlike (byteAt s args pos) (byteAt s args pos') := by
  refine (numberArgument_alike pos pos' args 0 _).bind fun index => ?_
  split
  · exact .ok _
  · exact .ok _

/-- A string method is alike everywhere. -/
theorem callStringMethod_alike (s method : Bytes) (args : List Value) :
    ChecksAlike (callStringMethod s method args pos) (callStringMethod s method args pos') := by
  have hstring (what : Bytes) (k : Bytes → Except RuntimeError Value) (hk : ∀ p, ChecksAlike (k p) (k p)) :
      ChecksAlike (stringArgument args 0 what pos >>= k) (stringArgument args 0 what pos' >>= k) :=
    (stringArgument_alike pos pos' args 0 what).bind hk
  unfold callStringMethod
  -- the methods in the order of the source
  split
  · exact .ok _
  split
  · exact hstring _ _ fun p => .ok _
  split
  · exact hstring _ _ fun p => .ok _
  split
  · exact hstring _ _ fun p => .ok _
  split
  · exact sliceString_alike pos pos' s args
  split
  · exact .ok _
  split
  · exact .ok _
  split
  · exact .ok _
  split
  · exact hstring _ _ fun p => .ok _
  split
  · exact byteAt_alike pos pos' s args
  · exact checksAlike_error _ _ _

/-- A unary operator is alike everywhere. -/
theorem applyUnary_alike (op : UnOp) (operand : Value) :
    ChecksAlike (applyUnary op operand pos) (applyUnary op operand pos') := by
  unfold applyUnary
  split
  · exact .ok _
  · exact .ok _
  · exact checksAlike_error _ _ _

/-- A comparison is alike everywhere. -/
theorem compareNumbers_alike (test : ℚ → ℚ → Bool) (l r : Value) :
    ChecksAlike (compareNumbers test l r pos) (compareNumbers test l r pos') := by
  unfold compareNumbers
  split
  · exact .ok _
  · exact checksAlike_error _ _ _

/-- A binary operator is alike everywhere. -/
theorem applyBinary_alike {s s' : Store} (h : s.Alike s') (op : BinOp) (l r : Value) :
    ChecksAlike (applyBinary s op l r pos) (applyBinary s' op l r pos') := by
  cases op with
  | add =>
    simp only [applyBinary]
    split
    · exact .ok _
    · rw [h.valueToString_eq, h.valueToString_eq]
      exact .ok _
  | sub =>
    simp only [applyBinary]
    split
    · exact .ok _
    · exact checksAlike_error _ _ _
  | lt => exact compareNumbers_alike pos pos' _ l r
  | gt => exact compareNumbers_alike pos pos' _ l r
  | lte => exact compareNumbers_alike pos pos' _ l r
  | gte => exact compareNumbers_alike pos pos' _ l r
  | and => exact .ok _
  | or => exact .ok _
  | eq => exact .ok _
  | neq => exact .ok _

end Checks

namespace CallContext.Alike

variable {ctx ctx' : CallContext}

/-- A named string argument is alike in alike contexts. -/
theorem namedString (h : ctx.Alike ctx') (key default what : Bytes) :
    ChecksAlike (ctx.namedString key default what) (ctx'.namedString key default what) := by
  unfold CallContext.namedString
  rw [h.named]
  split
  · exact needString_alike _ _ _ _
  · exact .ok _

/-- A named integer argument is alike in alike contexts. -/
theorem namedInt (h : ctx.Alike ctx') (key : Bytes) (default : ℤ) :
    ChecksAlike (ctx.namedInt key default) (ctx'.namedInt key default) := by
  unfold CallContext.namedInt
  rw [h.named]
  split
  · exact needInt_alike _ _ _ _
  · exact .ok _

/-- A named number argument is the same in alike contexts. -/
theorem namedNumber (h : ctx.Alike ctx') (key : Bytes) (default : ℚ) :
    ctx.namedNumber key default = ctx'.namedNumber key default := by
  unfold CallContext.namedNumber
  rw [h.named]

/-- The first string argument is alike in alike contexts. -/
theorem firstString (h : ctx.Alike ctx') (missing what : Bytes) :
    ChecksAlike (ctx.firstString missing what) (ctx'.firstString missing what) := by
  unfold CallContext.firstString
  rw [h.positional]
  split
  · exact checksAlike_error _ _ _
  · exact needString_alike _ _ _ _

/-- An endpoint is alike in alike contexts. -/
theorem endpoint (h : ctx.Alike ctx') (port timeoutMs : ℤ) :
    ChecksAlike (ctx.endpoint port timeoutMs) (ctx'.endpoint port timeoutMs) :=
  (h.namedString _ _ _).bind fun _ => (h.namedInt _ _).bind fun _ => (h.namedInt _ _).bind fun _ => .ok _

/-- The text of a request is alike in alike contexts. -/
theorem httpRequestText (h : ctx.Alike ctx') (e : Endpoint) :
    ChecksAlike (httpRequestText e ctx) (httpRequestText e ctx') :=
  (h.namedString _ _ _).bind fun _ => (h.namedString _ _ _).bind fun _ => (h.namedString _ _ _).bind fun _ => .ok _

/-- The argument of a verification is alike in alike contexts. -/
theorem verificationArgument (h : ctx.Alike ctx') :
    ChecksAlike (verificationArgument ctx) (verificationArgument ctx') := by
  unfold Ztl.verificationArgument
  rw [h.named]
  split
  · exact .ok _
  · exact (needString_alike _ _ _ _).bind fun _ => .ok _

/-- An argument with a fallback is alike in alike contexts. -/
theorem fallbackArgument (h : ctx.Alike ctx') (i : ℕ) (what given : Bytes) :
    ChecksAlike (fallbackArgument ctx i what given) (fallbackArgument ctx' i what given) := by
  unfold Ztl.fallbackArgument
  rw [h.positional]
  split
  · exact needString_alike _ _ _ _
  · exact .ok _

/-- The text of evidence is the same in alike contexts. -/
theorem evidenceText (h : ctx.Alike ctx') {s s' : Store} (hs : s.Alike s') :
    evidenceText s ctx = evidenceText s' ctx' := by
  unfold Ztl.evidenceText
  rw [h.named, funext hs.valueToString_eq]

/-- The finding of a call takes nothing from the findings before it. -/
theorem findingOf (h : ctx.Alike ctx') {state state' : RunState} (hstate : state.Alike state') {s s' : Store}
    (hs : s.Alike s') : ChecksAlike (findingOf state s ctx) (findingOf state' s' ctx') := by
  unfold Ztl.findingOf
  refine (h.namedString _ _ _).bind fun severity => (h.namedString _ _ _).bind fun title =>
    (h.namedString _ _ _).bind fun description => (h.namedString _ _ _).bind fun cve =>
    h.verificationArgument.bind fun verification => (h.namedString _ _ _).bind fun remediation =>
    (h.namedString _ _ _).bind fun cvssVector => ?_
  have hmeta : state.pluginMeta = state'.pluginMeta := hstate.get fun _ => rfl
  have hport : state.targetPort = state'.targetPort := hstate.get fun _ => rfl
  have hset : state.setService = state'.setService := hstate.get fun _ => rfl
  have hknown : state.knownService = state'.knownService := hstate.get fun _ => rfl
  have hhost : state.targetHost = state'.targetHost := hstate.get fun _ => rfl
  have hproduct : state.setProduct = state'.setProduct := hstate.get fun _ => rfl
  have hversion : state.setVersion = state'.setVersion := hstate.get fun _ => rfl
  rw [hmeta, hport, hset, hknown, hhost, hproduct, hversion, h.evidenceText hs, h.namedNumber, h.namedNumber]
  exact .ok _

end CallContext.Alike

/-- A field of the target is alike everywhere. -/
theorem targetField_alike (o : Object) (name : Bytes) (pos pos' : Pos) :
    ChecksAlike (targetField o name pos) (targetField o name pos') := by
  unfold targetField
  split
  · exact .ok _
  · exact needString_alike _ _ _ _

/-- A scoped key is alike everywhere. -/
theorem scopedKey_alike (scope key : Value) (pos pos' : Pos) :
    ChecksAlike (scopedKey scope key pos) (scopedKey scope key pos') := by
  refine (needString_alike _ _ _ _).bind fun scope => (needString_alike _ _ _ _).bind fun key => ?_
  split
  · exact checksAlike_error _ _ _
  · exact .ok _

section Actions

open Effect (alike_pure alike_throw alike_fault alike_gets alike_modify)

variable {α β : Type} {V : α → β → Prop} {ctx ctx' : CallContext} {w : World}

/-- Runtime errors with one message are alike. -/
theorem runtimeError_alike (pos pos' : Pos) (msg : Bytes) :
    Eval.Alike V (runtimeError pos msg) (runtimeError pos' msg) := alike_throw (.runtimeError ⟨pos, pos', msg⟩)

/-- Alike checks are thrown or answered alike. -/
theorem orThrow_alike {x x' : Except RuntimeError α} (h : ChecksAlike x x') :
    Eval.Alike Eq (orThrow x) (orThrow x') := by
  cases h with
  | ok a => exact alike_pure rfl
  | error h => exact alike_throw (.runtimeError h)

/-- Alike reads of alike stores are alike. -/
theorem readStore_alike {f : Store → α} {g : Store → β} (h : ∀ s s', s.Alike s' → V (f s) (g s')) :
    Eval.Alike V (readStore f) (readStore g) := alike_gets fun _ _ hm => h _ _ hm.store

/-- Changes that keep stores alike are alike. -/
theorem changeStore_alike {f g : Store → Store} (h : ∀ s s', s.Alike s' → (f s).Alike (g s')) :
    Eval.Alike Eq (changeStore f) (changeStore g) :=
  alike_modify fun _ _ hm => ⟨hm.globals, hm.locals, h _ _ hm.store⟩

/-- Reading what no finding touches of a run is alike. -/
theorem readRun_alike (run : ℕ) {f : RunState → α} (hf : ∀ s, f s = f { s with findings := [] }) :
    Eval.Alike Eq (readRun run f) (readRun run f) := readStore_alike fun _ _ hs => (hs.runs run).get hf

/-- Changes that keep a run's state alike are alike. -/
theorem changeRun_alike (run : ℕ) {f g : RunState → RunState}
    (h : ∀ state state', state.Alike state' → (f state).Alike (g state')) :
    Eval.Alike Eq (changeRun run f) (changeRun run g) := changeStore_alike fun _ _ hs => hs.withRun run h

/-- A change of a run that leaves its findings alone. -/
theorem changeRest_alike (run : ℕ) {f : RunState → RunState} (hfindings : ∀ s, (f s).findings = s.findings)
    (hf : ∀ s, { f s with findings := [] } = f { s with findings := [] }) :
    Eval.Alike Eq (changeRun run f) (changeRun run f) :=
  changeRun_alike run fun _ _ hstate => hstate.change hfindings hf

/-- Building an object is alike. -/
theorem newObject_alike (typeName : Bytes) (fields : List (Bytes × Value)) (methods : List (Bytes × Native)) :
    Eval.Alike Eq (newObject typeName fields methods) (newObject typeName fields methods) := by
  refine (readStore_alike fun _ _ hs => hs.next).bind fun id id' hid => ?_
  subst hid
  exact (changeStore_alike fun _ _ hs => hs.alloc _ _).bind fun _ _ _ => alike_pure rfl

/-- Building a function is alike. -/
theorem newFunction_alike (op : Native) : Eval.Alike Eq (newFunction op) (newFunction op) := by
  refine (readStore_alike fun _ _ hs => hs.next).bind fun id id' hid => ?_
  subst hid
  exact (changeStore_alike fun _ _ hs => hs.setNext _).bind fun _ _ _ => alike_pure rfl

/-- What is asked is the same, and so is the answer of a blind network. -/
theorem perform_alike (e : NetEvent) {answer : List NetEvent → α}
    (h : ∀ h h', h.map NetEvent.erase = h'.map NetEvent.erase → answer h = answer h') :
    Eval.Alike Eq (perform e answer) (perform e answer) :=
  (changeStore_alike fun _ _ hs => hs.event e).bind fun _ _ _ => readStore_alike fun _ _ hs => h _ _ hs.history

/-- Connecting is alike in a blind world. -/
theorem tcpConnect_alike (hw : w.Blind) (host : Bytes) (port timeoutMs : ℤ) :
    Eval.Alike Eq (tcpConnect w host port timeoutMs) (tcpConnect w host port timeoutMs) := by
  have hlength (s s' : Store) (hs : s.Alike s') : s.history.length = s'.history.length := by
    have h := congrArg List.length hs.history
    rwa [List.length_map, List.length_map] at h
  refine (readStore_alike hlength).bind fun connection connection' hconnection => ?_
  subst hconnection
  refine (perform_alike _ hw.connect).bind fun connected connected' hconnected => ?_
  subst hconnected
  exact alike_pure rfl

/-- Sending is alike in a blind world. -/
theorem tcpSend_alike (hw : w.Blind) (tcp : TcpState) (data : Bytes) :
    Eval.Alike Eq (tcpSend w tcp data) (tcpSend w tcp data) := by
  refine (perform_alike _ hw.send).bind fun sent sent' hsent => ?_
  subst hsent
  cases sent with
  | none => exact alike_fault _
  | some sent => exact alike_pure rfl

/-- Receiving is alike in a blind world. -/
theorem tcpReceive_alike (hw : w.Blind) (tcp : TcpState) (timeoutMs : ℤ) :
    Eval.Alike Eq (tcpReceive w tcp timeoutMs) (tcpReceive w tcp timeoutMs) := by
  refine (perform_alike _ hw.receive).bind fun data data' hdata => ?_
  subst hdata
  cases data with
  | none => exact .ite Iff.rfl (alike_fault _) (alike_pure rfl)
  | some data => exact alike_pure rfl

/-- A TLS handshake is alike in a blind world. -/
theorem tlsHandshake_alike (hw : w.Blind) (tls : Endpoint) :
    Eval.Alike Eq (tlsHandshake w tls) (tlsHandshake w tls) := by
  refine (perform_alike _ hw.handshake).bind fun report report' hreport => ?_
  subst hreport
  cases report with
  | none => exact alike_fault _
  | some report => exact alike_pure rfl

/-- Reading a response chunk by chunk is alike in a blind world. -/
theorem receiveChunks_alike (hw : w.Blind) (tcp : TcpState) (timeoutMs : ℤ) (budget : ℕ) (raw : Bytes) :
    Eval.Alike Eq (receiveChunks w tcp timeoutMs budget raw) (receiveChunks w tcp timeoutMs budget raw) := by
  induction budget generalizing raw with
  | zero => exact alike_pure rfl
  | succ budget ih =>
    refine (tcpReceive_alike hw tcp timeoutMs).bind fun chunk chunk' hchunk => ?_
    subst hchunk
    exact .ite Iff.rfl (alike_pure rfl) (.ite Iff.rfl (alike_pure rfl) (ih _))

/-- The result of a check is used in the same way on both sides. -/
theorem orThrow_bind_alike {γ : Type} {x x' : Except RuntimeError γ} (h : ChecksAlike x x') {k : γ → Eval α}
    {l : γ → Eval β} (hk : ∀ a, Eval.Alike V (k a) (l a)) : Eval.Alike V (orThrow x >>= k) (orThrow x' >>= l) := by
  refine (orThrow_alike h).bind fun a b hab => ?_
  subst hab
  exact hk a

end Actions

section Callbacks

open Effect (alike_pure alike_fault)

variable {ctx ctx' : CallContext} {w : World} (run : ℕ)

/-- `exists` and `value` of a header are alike. -/
theorem headerField_alike (h : ctx.Alike ctx') (name : Bytes) :
    Eval.Alike Eq (headerField name ctx) (headerField name ctx') := by
  unfold headerField
  rw [h.self]
  split
  · exact readStore_alike fun _ _ hs => by rw [hs.objects]
  · exact alike_fault _

/-- `header` of a response is alike. -/
theorem responseHeader_alike (h : ctx.Alike ctx') (response : RawHttpResponse) :
    Eval.Alike Eq (responseHeader response ctx) (responseHeader response ctx') := by
  refine orThrow_bind_alike (h.firstString _ _) fun name => ?_
  split
  · exact newObject_alike _ _ _
  · exact newObject_alike _ _ _

/-- Building a TCP object is alike in a blind world. -/
theorem makeTcpObj_alike (hw : w.Blind) (e : Endpoint) : Eval.Alike Eq (makeTcpObj w e) (makeTcpObj w e) := by
  refine (tcpConnect_alike hw _ _ _).bind fun tcp tcp' htcp => ?_
  subst htcp
  exact newObject_alike _ _ _

/-- `send` is alike in a blind world. -/
theorem tcpSendFn_alike (hw : w.Blind) (h : ctx.Alike ctx') (tcp : TcpState) :
    Eval.Alike Eq (tcpSendFn w tcp ctx) (tcpSendFn w tcp ctx') := by
  refine orThrow_bind_alike (h.firstString _ _) fun data => .ite Iff.rfl ?_ (alike_pure rfl)
  exact (tcpSend_alike hw tcp data).bind fun _ _ hsent => alike_pure (congrArg Value.bool hsent)

/-- `recv` and `recv_banner` are alike in a blind world. -/
theorem tcpRecvFn_alike (hw : w.Blind) (h : ctx.Alike ctx') (tcp : TcpState) :
    Eval.Alike Eq (tcpRecvFn w tcp ctx) (tcpRecvFn w tcp ctx') := by
  refine orThrow_bind_alike (h.namedInt _ _) fun timeoutMs => .ite Iff.rfl ?_ (alike_pure rfl)
  exact (tcpReceive_alike hw tcp timeoutMs).bind fun _ _ hdata => alike_pure (congrArg Value.string hdata)

/-- `request` is alike in a blind world. -/
theorem httpRequestFn_alike (hw : w.Blind) (h : ctx.Alike ctx') (e : Endpoint) :
    Eval.Alike Eq (httpRequestFn w e ctx) (httpRequestFn w e ctx') := by
  refine orThrow_bind_alike (h.httpRequestText e) fun request =>
    (tcpConnect_alike hw _ _ _).bind fun tcp tcp' htcp => ?_
  subst htcp
  refine .ite Iff.rfl ((tcpSend_alike hw _ _).bind fun sent sent' hsent => ?_) (alike_pure rfl)
  subst hsent
  refine .ite Iff.rfl ((receiveChunks_alike hw _ _ _ _).bind fun raw raw' hraw => ?_) (alike_pure rfl)
  subst hraw
  exact .ite Iff.rfl (alike_pure rfl) (newObject_alike _ _ _)

/-- `net::tcp` is alike in a blind world. -/
theorem netTcp_alike (hw : w.Blind) (h : ctx.Alike ctx') : Eval.Alike Eq (netTcp w ctx) (netTcp w ctx') :=
  orThrow_bind_alike (h.endpoint _ _) fun e => .ite Iff.rfl (runtimeError_alike _ _ _) (makeTcpObj_alike hw e)

/-- `net::http` is alike. -/
theorem netHttp_alike (h : ctx.Alike ctx') : Eval.Alike Eq (netHttp ctx) (netHttp ctx') :=
  orThrow_bind_alike (h.endpoint _ _) fun _ => .ite Iff.rfl (runtimeError_alike _ _ _) (newObject_alike _ _ _)

/-- `net::tls` is alike. -/
theorem netTls_alike (h : ctx.Alike ctx') : Eval.Alike Eq (netTls ctx) (netTls ctx') :=
  orThrow_bind_alike (h.endpoint _ _) fun _ => .ite Iff.rfl (runtimeError_alike _ _ _) (newObject_alike _ _ _)

/-- `handshake` is alike in a blind world. -/
theorem handshakeFn_alike (hw : w.Blind) (tls : Endpoint) :
    Eval.Alike Eq (do makeTlsReportObj (← tlsHandshake w tls)) (do makeTlsReportObj (← tlsHandshake w tls)) := by
  refine (tlsHandshake_alike hw tls).bind fun report report' hreport => ?_
  subst hreport
  exact newObject_alike _ _ _

/-- Changing the metadata is alike. -/
theorem changeMeta_alike (f : PluginMeta → PluginMeta) : Eval.Alike Eq (changeMeta run f) (changeMeta run f) :=
  changeRest_alike run (by intro _; rfl) (by intro _; rfl)

/-- The setters of the metadata are alike. -/
theorem pluginSetter_alike (h : ctx.Alike ctx') (what : Bytes) (set : PluginMeta → Bytes → PluginMeta) :
    Eval.Alike Eq (pluginSetter run what set ctx) (pluginSetter run what set ctx') := by
  unfold pluginSetter
  rw [h.positional]
  split
  · exact alike_pure rfl
  · exact orThrow_bind_alike (needString_alike _ _ _ _) fun s =>
      (changeMeta_alike run _).bind fun _ _ _ => alike_pure rfl

/-- `plugin.filter` is alike. -/
theorem pluginFilter_alike (h : ctx.Alike ctx') :
    Eval.Alike Eq (pluginFilter run ctx) (pluginFilter run ctx') := by
  unfold pluginFilter
  rw [h.named]
  refine (changeMeta_alike run _).bind fun _ _ _ => ?_
  split
  · exact alike_pure rfl
  · exact orThrow_bind_alike (needString_alike _ _ _ _) fun s =>
      (changeMeta_alike run _).bind fun _ _ _ => alike_pure rfl

/-- `plugin.set_service` is alike. -/
theorem pluginSetService_alike (h : ctx.Alike ctx') :
    Eval.Alike Eq (pluginSetService run ctx) (pluginSetService run ctx') := by
  refine orThrow_bind_alike (h.firstString _ _) fun svc =>
    (changeRest_alike run (by intro _; rfl) (by intro _; rfl)).bind fun _ _ _ =>
    (readRun_alike run fun _ => rfl).bind fun setVersion setVersion' hsetVersion => ?_
  subst hsetVersion
  refine orThrow_bind_alike (h.namedString _ _ _) fun version =>
    (changeRest_alike run (by intro _; rfl) (by intro _; rfl)).bind fun _ _ _ =>
    (readRun_alike run fun _ => rfl).bind fun setProduct setProduct' hsetProduct => ?_
  subst hsetProduct
  refine orThrow_bind_alike (h.namedString _ _ _) fun product =>
    (changeRest_alike run (by intro _; rfl) (by intro _; rfl)).bind fun _ _ _ => ?_
  rw [h.named]
  exact (changeStore_alike fun _ _ hs => hs.claim run svc _).bind fun _ _ _ => alike_pure rfl

/-- Catching a return is alike when the body is. -/
theorem catchReturn_alike {body body' : Eval Unit} (h : Eval.Alike Eq body body') :
    Eval.Alike Eq (catchReturn body) (catchReturn body') := by
  refine h.tryCatch fun e e' he => ?_
  cases he with
  | returned v => exact alike_pure rfl
  | runtimeError he => exact Effect.alike_throw (.runtimeError he)

/-- Running in the global scope is alike when the body is. -/
theorem inGlobalScope_alike {body body' : Eval Unit} (h : Eval.Alike Eq body body') :
    Eval.Alike Eq (inGlobalScope body) (inGlobalScope body') :=
  h.within (fun _ _ hm => ⟨hm.globals, rfl, hm.store⟩) fun _ _ _ _ hm hm' => ⟨hm'.globals, hm.locals, hm'.store⟩

/-- `plugin.run` is alike when its block is. -/
theorem pluginRun_alike (ctx ctx' : CallContext) {block block' : Option (Eval Unit)}
    (hblock : Option.Rel (Eval.Alike Eq) block block') :
    Eval.Alike Eq (pluginRun run ctx block) (pluginRun run ctx' block') := by
  cases hblock with
  | none => exact runtimeError_alike _ _ _
  | @some body body' hbody =>
    refine (readRun_alike run fun _ => rfl).bind fun runs runs' hruns => ?_
    subst hruns
    cases runs with
    | true => exact (catchReturn_alike (inGlobalScope_alike hbody)).bind fun _ _ _ => alike_pure rfl
    | false => exact alike_pure rfl

/-- `finding` is alike in a blind world. -/
theorem findingFn_alike (hw : w.Blind) (h : ctx.Alike ctx') :
    Eval.Alike Eq (findingFn w run ctx) (findingFn w run ctx') := by
  have hread : Eval.Alike ChecksAlike (readStore fun s => findingOf (s.runs run) s ctx)
      (readStore fun s => findingOf (s.runs run) s ctx') := readStore_alike fun _ _ hs => h.findingOf (hs.runs run) hs
  refine hread.bind fun x x' hx => orThrow_bind_alike hx fun f => ?_
  refine (perform_alike _ hw.clock).bind fun now now' hnow => ?_
  subst hnow
  refine (changeRun_alike run fun state state' hstate => ⟨?_, ?_⟩).bind fun _ _ _ => alike_pure rfl
  · exact hstate.rest
  · exact List.rel_append hstate.findings (.cons (.same _) .nil)

/-- Reading the KB is alike. -/
theorem readKb_alike (key : Bytes) : Eval.Alike Eq (readKb run key) (readKb run key) := by
  refine readStore_alike fun s s' hs => ?_
  have hkb : (s.runs run).hasKb = (s'.runs run).hasKb := (hs.runs run).get fun _ => rfl
  rw [hkb, hs.kb]

/-- A write to the KB of the run, when there is one. -/
theorem writeKb_alike (key : Bytes) (v : Value) :
    Eval.Alike Eq (do if ← readRun run (·.hasKb) then changeStore fun s => { s with kb := s.kb.set key v }
                      return Value.null)
      (do if ← readRun run (·.hasKb) then changeStore fun s => { s with kb := s.kb.set key v }
          return Value.null) := by
  refine (readRun_alike run fun _ => rfl).bind fun hasKb hasKb' h => ?_
  subst h
  cases hasKb with
  | true => exact (changeStore_alike fun _ _ hs => hs.setKb key v).bind fun _ _ _ => alike_pure rfl
  | false => exact alike_pure rfl

/-- An answer made of an entry of the KB. -/
theorem answerKb_alike (key : Bytes) (f : Option Value → Value) :
    Eval.Alike Eq (do return f (← readKb run key)) (do return f (← readKb run key)) :=
  (readKb_alike run key).bind fun _ _ h => alike_pure (congrArg f h)

/-- `kb.set` is alike. -/
theorem kbSet_alike (h : ctx.Alike ctx') : Eval.Alike Eq (kbSet run ctx) (kbSet run ctx') := by
  unfold kbSet
  rw [h.positional]
  split
  · exact orThrow_bind_alike (needString_alike _ _ _ _) fun key => writeKb_alike run key _
  · exact runtimeError_alike _ _ _

/-- `kb.get` is alike. -/
theorem kbGet_alike (h : ctx.Alike ctx') : Eval.Alike Eq (kbGet run ctx) (kbGet run ctx') :=
  orThrow_bind_alike (h.firstString _ _) fun key => answerKb_alike run key _

/-- `kb.has` is alike. -/
theorem kbHas_alike (h : ctx.Alike ctx') : Eval.Alike Eq (kbHas run ctx) (kbHas run ctx') :=
  orThrow_bind_alike (h.firstString _ _) fun key => answerKb_alike run key fun v => .bool v.isSome

/-- `kb.set_scoped` is alike. -/
theorem kbSetScoped_alike (h : ctx.Alike ctx') : Eval.Alike Eq (kbSetScoped run ctx) (kbSetScoped run ctx') := by
  unfold kbSetScoped
  rw [h.positional]
  split
  · exact orThrow_bind_alike (scopedKey_alike _ _ _ _) fun key => writeKb_alike run key _
  · exact runtimeError_alike _ _ _

/-- `kb.get_scoped` is alike. -/
theorem kbGetScoped_alike (h : ctx.Alike ctx') : Eval.Alike Eq (kbGetScoped run ctx) (kbGetScoped run ctx') := by
  unfold kbGetScoped
  rw [h.positional]
  split
  · exact orThrow_bind_alike (scopedKey_alike _ _ _ _) fun key => answerKb_alike run key _
  · exact runtimeError_alike _ _ _

/-- `kb.has_scoped` is alike. -/
theorem kbHasScoped_alike (h : ctx.Alike ctx') : Eval.Alike Eq (kbHasScoped run ctx) (kbHasScoped run ctx') := by
  unfold kbHasScoped
  rw [h.positional]
  split
  · exact orThrow_bind_alike (scopedKey_alike _ _ _ _) fun key => answerKb_alike run key fun v => .bool v.isSome
  · exact runtimeError_alike _ _ _

/-- `cve.check` is alike. -/
theorem cveCheckFn_alike (h : ctx.Alike ctx') : Eval.Alike Eq (cveCheckFn w ctx) (cveCheckFn w ctx') :=
  orThrow_bind_alike (h.namedString _ _ _) fun _ => orThrow_bind_alike (h.namedString _ _ _) fun _ =>
    orThrow_bind_alike (h.namedString _ _ _) fun _ => newObject_alike _ _ _

/-- `cve.verify` is alike. -/
theorem cveVerifyFn_alike (h : ctx.Alike ctx') : Eval.Alike Eq (cveVerifyFn w ctx) (cveVerifyFn w ctx') := by
  unfold cveVerifyFn
  rw [h.named]
  split
  · exact runtimeError_alike _ _ _
  · refine (readStore_alike fun _ _ hs => congrFun hs.objects _).bind fun o o' ho => ?_
    subst ho
    refine .ite Iff.rfl ?_ (runtimeError_alike _ _ _)
    exact orThrow_bind_alike (h.namedString _ _ _) fun _ => orThrow_bind_alike (targetField_alike _ _ _ _) fun _ =>
      orThrow_bind_alike (targetField_alike _ _ _ _) fun _ => newObject_alike _ _ _
  · exact runtimeError_alike _ _ _

/-- `cve.lookup` is alike. -/
theorem cveLookupFn_alike (h : ctx.Alike ctx') : Eval.Alike Eq (cveLookupFn w ctx) (cveLookupFn w ctx') :=
  orThrow_bind_alike (h.namedString _ _ _) fun _ => orThrow_bind_alike (h.namedString _ _ _) fun _ =>
    orThrow_bind_alike (h.fallbackArgument _ _ _) fun _ => orThrow_bind_alike (h.fallbackArgument _ _ _) fun _ =>
      alike_pure rfl

/-- Every callback does the same wherever it is called. -/
theorem callNative_alike (hw : w.Blind) (op : Native) (h : ctx.Alike ctx') {block block' : Option (Eval Unit)}
    (hblock : Option.Rel (Eval.Alike Eq) block block') :
    Eval.Alike Eq (callNative w op ctx block) (callNative w op ctx' block') := by
  cases op with
  | pluginName run => exact pluginSetter_alike run h _ _
  | pluginDescription run => exact pluginSetter_alike run h _ _
  | pluginCategory run => exact pluginSetter_alike run h _ _
  | pluginFilter run => exact pluginFilter_alike run h
  | pluginSetService run => exact pluginSetService_alike run h
  | pluginRun run => exact pluginRun_alike run ctx ctx' hblock
  | finding run => exact findingFn_alike run hw h
  | kbSet run => exact kbSet_alike run h
  | kbGet run => exact kbGet_alike run h
  | kbHas run => exact kbHas_alike run h
  | kbSetScoped run => exact kbSetScoped_alike run h
  | kbGetScoped run => exact kbGetScoped_alike run h
  | kbHasScoped run => exact kbHasScoped_alike run h
  | cveCheck => exact cveCheckFn_alike h
  | cveVerify => exact cveVerifyFn_alike h
  | cveLookup => exact cveLookupFn_alike h
  | netTcp => exact netTcp_alike hw h
  | netHttp => exact netHttp_alike h
  | netTls => exact netTls_alike h
  | tcpSend tcp => exact tcpSendFn_alike hw h tcp
  | tcpRecv tcp => exact tcpRecvFn_alike hw h tcp
  | tcpRecvBanner tcp => exact tcpRecvFn_alike hw h tcp
  | httpRequest http => exact httpRequestFn_alike hw h http
  | tlsHandshake tls => exact handshakeFn_alike hw tls
  | headerExists => exact headerField_alike h _
  | headerValue => exact headerField_alike h _
  | responseHeader response => exact responseHeader_alike h response
  | tcpConnected _ | responseStatus _ | responseBody _ | responseHeaders _ => exact alike_pure rfl

/-- Invoking a native is alike when its block is. -/
theorem invoke_alike (hw : w.Blind) (fn : NativeFn) (h : ctx.Alike ctx') {block block' : Option (Eval Unit)}
    (hblock : Option.Rel (Eval.Alike Eq) block block') :
    Eval.Alike Eq (invoke w fn ctx block) (invoke w fn ctx' block') :=
  Effect.Alike.bind (Effect.alike_modify fun _ _ hm => ⟨hm.globals, hm.locals, hm.store⟩) fun _ _ _ =>
    callNative_alike hw fn.op h hblock

end Callbacks

section Evaluation

open Effect (alike_pure alike_throw alike_gets alike_modify)

variable {w : World}

/-- The same assignment keeps machines alike. -/
theorem Machine.Alike.assign {m m' : Machine} (h : m.Alike m') (name : Bytes) (v : Value) :
    (m.assign name v).Alike (m'.assign name v) := by
  refine ⟨?_, ?_, ?_⟩
  · simp only [Machine.assign, Machine.define, h.globals, h.locals]
    split
    · rfl
    · split
      · rfl
      · split <;> rfl
  · simp only [Machine.assign, Machine.define, h.globals, h.locals]
    split
    · rfl
    · split
      · rfl
      · split <;> rfl
  · rw [Machine.assign_store, Machine.assign_store]
    exact h.store

/-- Reading a variable is alike. -/
theorem readVariable_alike (name msg : Bytes) (pos pos' : Pos) :
    Eval.Alike Eq (readVariable name msg pos) (readVariable name msg pos') := by
  have hlookup (m m' : Machine) (hm : m.Alike m') :
      lookup m.globals m.locals name = lookup m'.globals m'.locals name := by
    rw [hm.globals, hm.locals]
  refine (alike_gets hlookup).bind fun found found' hfound => ?_
  subst hfound
  cases found with
  | none => exact runtimeError_alike _ _ _
  | some v => exact alike_pure rfl

/-- Reading a member is alike. -/
theorem memberOf_alike (receiver : Value) (member : Bytes) (pos pos' : Pos) :
    Eval.Alike Eq (memberOf receiver member pos) (memberOf receiver member pos') := by
  cases receiver with
  | object address =>
    refine (readStore_alike fun _ _ hs => congrFun hs.objects address).bind fun o o' ho => ?_
    subst ho
    split
    · exact alike_pure rfl
    · exact alike_pure rfl
    · exact runtimeError_alike _ _ _
  | _ => exact runtimeError_alike _ _ _

/-- A method call is alike when its block is. -/
theorem invokeMethod_alike (hw : w.Blind) (receiver : Value) (method : Bytes) (args : Arguments)
    {block block' : Option (Eval Unit)} (hblock : Option.Rel (Eval.Alike Eq) block block') (pos pos' : Pos) :
    Eval.Alike Eq (invokeMethod w receiver method args block pos)
      (invokeMethod w receiver method args block' pos') := by
  cases receiver with
  | string s => exact orThrow_alike (callStringMethod_alike _ _ _ _ _)
  | object address =>
    refine (readStore_alike fun _ _ hs => congrFun hs.objects address).bind fun o o' ho => ?_
    subst ho
    split
    · exact invoke_alike hw _ (callContext_alike _ _ _ _ _) hblock
    · exact runtimeError_alike _ _ _
  | _ => exact runtimeError_alike _ _ _

/-- A function call is alike when its block is. -/
theorem invokeFunction_alike (hw : w.Blind) (callee : Value) (args : Arguments)
    {block block' : Option (Eval Unit)} (hblock : Option.Rel (Eval.Alike Eq) block block') (pos pos' : Pos) :
    Eval.Alike Eq (invokeFunction w callee args block pos) (invokeFunction w callee args block' pos') := by
  cases callee with
  | function fn => exact invoke_alike hw _ (callContext_alike _ _ _ _ _) hblock
  | _ => exact runtimeError_alike _ _ _

/-- Running in a block scope is alike when the body is. -/
theorem inBlockScope_alike {body body' : Eval Unit} (h : Eval.Alike Eq body body') :
    Eval.Alike Eq (inBlockScope body) (inBlockScope body') :=
  h.within (fun _ _ hm => ⟨hm.globals, congrArg (Env.empty :: ·) hm.locals, hm.store⟩)
    fun _ _ _ _ _ hm => ⟨hm.globals, congrArg List.tail hm.locals, hm.store⟩

/-- The callee is not a member of an object. -/
def Expr.IsMember : Expr → Prop
  | .member _ _ _ => True
  | _ => False

/-- Erasure keeps what is a member. -/
theorem Expr.isMember_erase (e : Expr) : e.erase.IsMember ↔ e.IsMember := by
  cases e <;> exact Iff.rfl

/-- A call of a value that is not a method. -/
theorem evalExpr_call (w : World) {callee : Expr} (h : ¬callee.IsMember) (pos : Pos) (args : List CallArg)
    (block : Option (List Stmt)) :
    evalExpr w (.call pos callee args block) = (do
      let args ← evalArgs w args {}
      let callee ← evalExpr w callee
      invokeFunction w callee args (evalBlock w block) pos) := by
  cases callee with
  | member pos' object method => exact absurd trivial h
  | _ => rfl

mutual

/-- Expressions that differ in their layout have the same value. -/
theorem evalExpr_alike (hw : w.Blind) : ∀ {e e' : Expr}, e.erase = e'.erase →
    Eval.Alike Eq (evalExpr w e) (evalExpr w e')
  | .null _, e', h => by
    cases e' <;> cases h
    exact alike_pure rfl
  | .bool _ _, e', h => by
    cases e' <;> cases h
    exact alike_pure rfl
  | .number _ _, e', h => by
    cases e' <;> cases h
    exact alike_pure rfl
  | .string _ _, e', h => by
    cases e' <;> cases h
    exact alike_pure rfl
  | .ident _ _, e', h => by
    obtain ⟨pos', rfl⟩ := exists_of_erase_ident h.symm
    exact readVariable_alike _ _ _ _
  | .scoped _ _ _, e', h => by
    obtain ⟨pos', rfl⟩ := exists_of_erase_scoped h.symm
    exact readVariable_alike _ _ _ _
  | .member _ object member, e', h => by
    obtain ⟨pos', object', rfl, hobject⟩ := exists_of_erase_member h.symm
    refine (evalExpr_alike hw hobject.symm).bind fun receiver receiver' hreceiver => ?_
    subst hreceiver
    exact memberOf_alike _ _ _ _
  | .call pos callee args block, e', h => by
    obtain ⟨pos', callee', args', block', rfl, hcallee, hargs, hblock⟩ := exists_of_erase_call h.symm
    by_cases hmember : callee.IsMember
    · cases callee with
      | member mpos object method =>
        obtain ⟨mpos', object', rfl, hobject⟩ := exists_of_erase_member hcallee
        refine (evalArgs_alike hw hargs.symm {}).bind fun done done' hdone =>
          (evalExpr_alike hw hobject.symm).bind fun receiver receiver' hreceiver => ?_
        subst hdone hreceiver
        exact invokeMethod_alike hw _ _ _ (evalBlock_alike hw hblock.symm) _ _
      | _ => exact hmember.elim
    · have hmember' : ¬callee'.IsMember := by
        rwa [← Expr.isMember_erase, hcallee, Expr.isMember_erase]
      rw [evalExpr_call w hmember, evalExpr_call w hmember']
      refine (evalArgs_alike hw hargs.symm {}).bind fun done done' hdone =>
        (evalExpr_alike hw hcallee.symm).bind fun v v' hv => ?_
      subst hdone hv
      exact invokeFunction_alike hw _ _ (evalBlock_alike hw hblock.symm) _ _
  | .unary pos op operand, e', h => by
    obtain ⟨pos', operand', rfl, hoperand⟩ := exists_of_erase_unary h.symm
    refine (evalExpr_alike hw hoperand.symm).bind fun v v' hv => ?_
    subst hv
    exact orThrow_alike (applyUnary_alike _ _ _ _)
  | .binary pos op lhs rhs, e', h => by
    obtain ⟨pos', lhs', rhs', rfl, hlhs, hrhs⟩ := exists_of_erase_binary h.symm
    have hr := evalExpr_alike hw hrhs.symm
    refine (evalExpr_alike hw hlhs.symm).bind fun l l' hl => ?_
    subst hl
    cases op with
    | and => exact .ite Iff.rfl hr (alike_pure rfl)
    | or => exact .ite Iff.rfl (alike_pure rfl) hr
    | _ =>
      refine hr.bind fun r r' hr => ?_
      subst hr
      exact (readStore_alike fun _ _ hs => applyBinary_alike _ _ hs _ _ _).bind fun _ _ hresult => orThrow_alike hresult

/-- Arguments that erase to the same are evaluated alike. -/
theorem evalArgs_alike (hw : w.Blind) : ∀ {args args' : List CallArg}, eraseArgs args = eraseArgs args' →
    ∀ done : Arguments, Eval.Alike Eq (evalArgs w args done) (evalArgs w args' done)
  | [], args', h, done => by
    cases args' with
    | nil => exact alike_pure rfl
    | cons arg args' => cases arg; cases h
  | .mk name value :: args, args', h, done => by
    cases args' with
    | nil => cases h
    | cons arg args' =>
      obtain ⟨name', value'⟩ := arg
      rw [eraseArgs, eraseArgs, List.cons.injEq, CallArg.mk.injEq] at h
      obtain ⟨⟨rfl, hvalue⟩, hargs⟩ := h
      refine (evalExpr_alike hw hvalue).bind fun v v' hv => ?_
      subst hv
      exact evalArgs_alike hw hargs _

/-- Blocks that erase to the same run alike. -/
theorem evalBlock_alike (hw : w.Blind) : ∀ {block block' : Option (List Stmt)}, eraseBlock block = eraseBlock block' →
    Option.Rel (Eval.Alike Eq) (evalBlock w block) (evalBlock w block')
  | none, block', h => by
    cases block' with
    | none => exact .none
    | some body' => cases h
  | some body, block', h => by
    cases block' with
    | none => cases h
    | some body' => exact .some (execStmts_alike hw (Option.some.inj h))

/-- Statements that erase to the same run alike. -/
theorem execStmt_alike (hw : w.Blind) : ∀ {s s' : Stmt}, s.erase = s'.erase →
    Eval.Alike Eq (execStmt w s) (execStmt w s')
  | .includeModule _ _, s', h => by
    cases s' <;> cases h
    exact alike_pure rfl
  | .expr _ value, s', h => by
    obtain ⟨pos', value', rfl, hvalue⟩ := exists_of_erase_expr h.symm
    exact (evalExpr_alike hw hvalue.symm).bind fun _ _ _ => alike_pure rfl
  | .assign _ targetName value, s', h => by
    obtain ⟨pos', value', rfl, hvalue⟩ := exists_of_erase_assign h.symm
    refine (evalExpr_alike hw hvalue.symm).bind fun v v' hv => ?_
    subst hv
    exact alike_modify fun _ _ hm => hm.assign _ _
  | .ifThen _ condition thenBranch elseBranch, s', h => by
    obtain ⟨pos', condition', thenBranch', elseBranch', rfl, hcondition, hthen, helse⟩ := exists_of_erase_ifThen h.symm
    have hempty : elseBranch.isEmpty = elseBranch'.isEmpty := by
      cases elseBranch <;> cases elseBranch' <;> first | rfl | cases helse
    refine (evalExpr_alike hw hcondition.symm).bind fun cond cond' hcond => ?_
    subst hcond
    refine .ite Iff.rfl (inBlockScope_alike (execStmts_alike hw hthen.symm)) ?_
    exact .ite (by rw [hempty]) (alike_pure rfl) (inBlockScope_alike (execStmts_alike hw helse.symm))
  | .ret _ value, s', h => by
    cases s' with
    | ret pos' value' =>
      rw [Stmt.erase, Stmt.erase, Stmt.ret.injEq] at h
      refine (evalReturnValue_alike hw h.2).bind fun v v' hv => ?_
      subst hv
      exact alike_throw (.returned v)
    | _ => cases h

/-- Return values that erase to the same are evaluated alike. -/
theorem evalReturnValue_alike (hw : w.Blind) : ∀ {value value' : Option Expr}, eraseValue value = eraseValue value' →
    Eval.Alike Eq (evalReturnValue w value) (evalReturnValue w value')
  | none, value', h => by
    cases value' with
    | none => exact alike_pure rfl
    | some e' => cases h
  | some e, value', h => by
    cases value' with
    | none => cases h
    | some e' => exact evalExpr_alike hw (Option.some.inj h)

/-- Lists of statements that erase to the same run alike. -/
theorem execStmts_alike (hw : w.Blind) : ∀ {ss ss' : List Stmt}, eraseStmts ss = eraseStmts ss' →
    Eval.Alike Eq (execStmts w ss) (execStmts w ss')
  | [], ss', h => by
    rw [eq_nil_of_eraseStmts h.symm]
    exact alike_pure rfl
  | stmt :: stmts, ss', h => by
    obtain ⟨stmt', stmts', rfl, hstmt, hstmts⟩ := exists_of_eraseStmts_cons h.symm
    exact (execStmt_alike hw hstmt.symm).bind fun _ _ _ => execStmts_alike hw hstmts.symm

end

end Evaluation

end ZeroTrust.Ztl
