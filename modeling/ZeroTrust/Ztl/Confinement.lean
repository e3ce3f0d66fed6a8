import ZeroTrust.Ztl.Steps

/-!
# Programs that do not mention a method

`Plugin.filter` of a run is reached through the member `filter` of the plugin object and in no other way, as
long as nobody takes it from there (`Machine.Confined`). Evaluation of a tree that does not mention the member
keeps it so: values, arguments and variables stay free of the function, and no call of it is recorded.
-/

namespace ZeroTrust.Ztl

open Function (update update_self update_of_ne)

/-- The calls of `Plugin.filter` on the plugin object of a run. -/
def filterCalls (run : ℕ) (calls : List CallRecord) : List FilterArguments :=
  calls.filterMap fun c => if c.fn.op = .pluginFilter run then some (filterArguments c.ctx.named) else none

/-- The filter calls of two stretches are those of the first, then those of the second. -/
theorem filterCalls_append (run : ℕ) (first second : List CallRecord) :
    filterCalls run (first ++ second) = filterCalls run first ++ filterCalls run second := List.filterMap_append

/-- A call of something else is no filter call. -/
theorem filterCalls_other {run : ℕ} {c : CallRecord} (h : c.fn.op ≠ .pluginFilter run) :
    filterCalls run [c] = [] := by
  simp [filterCalls, h]

/-- A value that is not `Plugin.filter` of the run. -/
def Value.Clean (run : ℕ) (v : Value) : Prop := ∀ fn, v = .function fn → fn.op ≠ .pluginFilter run

/-- A map to such values. -/
def Env.Clean (run : ℕ) (env : Env) : Prop := ∀ name v, env name = some v → v.Clean run

/-- An object through which `Plugin.filter` is reached by its name only, and nothing else is. -/
structure Object.Confined (run : ℕ) (o : Object) : Prop where
  fields : o.fields.Clean run
  methods : ∀ name fn, o.methods name = some fn → (name = str "filter" ↔ fn.op = .pluginFilter run)

/-- Such arguments. -/
structure Arguments.Clean (run : ℕ) (args : Arguments) : Prop where
  positional : ∀ v ∈ args.positional, v.Clean run
  named : args.named.Clean run

/-- A machine on which `Plugin.filter` is reached by its name only, with the calls of it so far. -/
structure Machine.Confined (run : ℕ) (made : List FilterArguments) (m : Machine) : Prop where
  globals : m.globals.Clean run
  locals : ∀ scope ∈ m.locals, Env.Clean run scope
  kb : m.store.kb.Clean run
  objects : ∀ address, (m.store.objects address).Confined run
  calls : filterCalls run m.trace = made

/-- A computation that calls `Plugin.filter` of the run no more. -/
abbrev Confines {α : Type} (run : ℕ) (made : List FilterArguments) (P : α → Prop) (p : Eval α) : Prop :=
  Effect.Keeps (Machine.Confined run made) P p

section Confined

variable {run : ℕ} {made : List FilterArguments}

/-- Data holds no function. -/
theorem Value.IsData.clean {v : Value} (h : v.IsData) : v.Clean run := fun fn hv => absurd hv (h fn)

/-- The empty scope holds no filter function. -/
theorem Env.clean_empty : Env.empty.Clean run := nofun

/-- Binding a clean value keeps a scope clean. -/
theorem Env.Clean.set {env : Env} (h : env.Clean run) {v : Value} (hv : v.Clean run) (name : Bytes) :
    (env.set name v).Clean run := by
  intro other u hu
  obtain ⟨-, rfl⟩ | hold := eq_or_of_update hu
  · exact hv
  · exact h other u hold

/-- Binding an argument keeps a scope clean. -/
theorem Env.Clean.setArgument {env named : Env} (h : env.Clean run) (hnamed : named.Clean run) (name : Bytes) :
    (env.setArgument name (named name)).Clean run := by
  cases hv : named name with
  | none => exact h
  | some v => exact h.set (hnamed name v hv) name

/-- A plain object has no filter function. -/
theorem Object.Plain.confined {o : Object} (h : o.Plain) : o.Confined run where
  fields name v hv := Value.IsData.clean (h.fields name v hv)
  methods name fn hfn := by
    obtain ⟨hname, hop⟩ := h.methods name fn hfn
    apply iff_of_false hname
    intro hfilter
    rw [hfilter] at hop
    cases hop

/-- What is looked up in clean scopes is clean. -/
theorem lookup_clean {globals : Env} {locals : List Env} (hglobals : globals.Clean run)
    (hlocals : ∀ scope ∈ locals, Env.Clean run scope) {name : Bytes} {v : Value}
    (hv : lookup globals locals name = some v) : v.Clean run := by
  induction locals with
  | nil => exact hglobals name v hv
  | cons scope scopes ih =>
    rw [lookup] at hv
    cases hscope : scope name with
    | none =>
      rw [hscope] at hv
      exact ih (fun scope hmem => hlocals scope (List.mem_cons_of_mem _ hmem)) hv
    | some u =>
      rw [hscope] at hv
      cases hv
      exact hlocals scope List.mem_cons_self name v hscope

/-- Assigning a clean value keeps the local scopes clean. -/
theorem assignLocals_clean {name : Bytes} {v : Value} (hv : v.Clean run) {locals locals' : List Env}
    (hlocals : ∀ scope ∈ locals, Env.Clean run scope) (h : assignLocals name v locals = some locals') :
    ∀ scope ∈ locals', Env.Clean run scope := by
  induction locals generalizing locals' with
  | nil => cases h
  | cons scope scopes ih =>
    have hscope := hlocals scope List.mem_cons_self
    have hscopes : ∀ scope ∈ scopes, Env.Clean run scope :=
      fun scope hmem => hlocals scope (List.mem_cons_of_mem _ hmem)
    rw [assignLocals] at h
    split at h
    · cases h
      intro other hother
      rcases List.mem_cons.mp hother with rfl | hother
      · exact hscope.set hv name
      · exact hscopes other hother
    · obtain ⟨rest, hrest, rfl⟩ := Option.map_eq_some_iff.mp h
      intro other hother
      rcases List.mem_cons.mp hother with rfl | hother
      · exact hscope
      · exact ih hscopes hrest other hother

namespace Machine.Confined

variable {m : Machine}

/-- A change of a run's state keeps the machine confined. -/
theorem withRun (h : m.Confined run made) (r : ℕ) (f : RunState → RunState) :
    Machine.Confined run made { m with store := m.store.withRun r f } :=
  ⟨h.globals, h.locals, h.kb, h.objects, h.calls⟩

/-- Writing a clean value to the KB keeps the machine confined. -/
theorem setKb (h : m.Confined run made) (key : Bytes) {v : Value} (hv : v.Clean run) :
    Machine.Confined run made { m with store := { m.store with kb := m.store.kb.set key v } } :=
  ⟨h.globals, h.locals, h.kb.set hv key, h.objects, h.calls⟩

/-- Adding a confined object keeps the machine confined. -/
theorem setObject (h : m.Confined run made) (address next : ℕ) {o : Object} (ho : o.Confined run) :
    Machine.Confined run made { m with store := { m.store with
      objects := update m.store.objects address o, next := next } } := by
  refine ⟨h.globals, h.locals, h.kb, fun other => ?_, h.calls⟩
  change (update m.store.objects address o other).Confined run
  by_cases hother : other = address
  · subst hother
    rw [update_self]
    exact ho
  · rw [update_of_ne hother]
    exact h.objects other

/-- A claim writes texts and arguments. -/
theorem claim (h : m.Confined run made) (r : ℕ) (svc : Bytes) {named : Env} (hnamed : named.Clean run) :
    Machine.Confined run made { m with store := m.store.claim r svc named } := by
  have hsvc : Value.Clean run (.string svc) := nofun
  refine ⟨h.globals, h.locals, ?_, fun other => ?_, h.calls⟩
  · change (if (m.store.runs r).hasKb then claimInKb svc named m.store.kb else m.store.kb).Clean run
    split
    · exact (((h.kb.set hsvc _).setArgument hnamed _).setArgument hnamed _).setArgument hnamed _
    · exact h.kb
  · rw [Store.claim]
    cases (m.store.runs r).target with
    | none => exact h.objects other
    | some address =>
      have hfields := (((h.objects address).fields.set hsvc (str "service")).setArgument hnamed
        (str "version")).setArgument hnamed (str "product")
      have hobject : Object.Confined run
          { m.store.objects address with fields := claimInTarget svc named (m.store.objects address).fields } :=
        ⟨hfields, (h.objects address).methods⟩
      exact (h.setObject address m.store.next hobject).objects other

/-- The record of another call. -/
theorem record (h : m.Confined run made) {fn : NativeFn} (hop : fn.op ≠ .pluginFilter run) (ctx : CallContext) :
    (m.record fn ctx).Confined run made := by
  refine ⟨h.globals, h.locals, h.kb, h.objects, ?_⟩
  rw [Machine.record, filterCalls_append, filterCalls_other hop, List.append_nil, h.calls]

/-- Entering a block of `plugin.run` keeps the machine confined. -/
theorem enterGlobal (h : m.Confined run made) : m.enterGlobal.Confined run made := by
  refine ⟨h.globals, fun scope hscope => ?_, h.kb, h.objects, h.calls⟩
  rw [List.mem_singleton.mp hscope]
  exact Env.clean_empty

/-- Leaving a block of `plugin.run` keeps the machine confined. -/
theorem restore {m' : Machine} (h : m.Confined run made) (h' : m'.Confined run made) :
    (m.restore m').Confined run made := ⟨h'.globals, h.locals, h'.kb, h'.objects, h'.calls⟩

/-- Opening a scope keeps the machine confined. -/
theorem push (h : m.Confined run made) : m.push.Confined run made := by
  refine ⟨h.globals, fun scope hscope => ?_, h.kb, h.objects, h.calls⟩
  rcases List.mem_cons.mp hscope with rfl | hscope
  · exact Env.clean_empty
  · exact h.locals scope hscope

/-- Closing a scope keeps the machine confined. -/
theorem pop (h : m.Confined run made) : m.pop.Confined run made :=
  ⟨h.globals, fun scope hscope => h.locals scope (List.mem_of_mem_tail hscope), h.kb, h.objects, h.calls⟩

/-- Defining a name keeps the machine confined. -/
theorem define (h : m.Confined run made) (name : Bytes) {v : Value} (hv : v.Clean run) :
    (m.define name v).Confined run made := by
  rw [Machine.define]
  split
  · exact ⟨h.globals.set hv name, h.locals, h.kb, h.objects, h.calls⟩
  · next scope scopes hlocals =>
    refine ⟨h.globals, fun other hother => ?_, h.kb, h.objects, h.calls⟩
    rcases List.mem_cons.mp hother with rfl | hother
    · exact (h.locals scope (hlocals ▸ List.mem_cons_self)).set hv name
    · exact h.locals other (hlocals ▸ List.mem_cons_of_mem _ hother)

/-- Assigning to a name keeps the machine confined. -/
theorem assign (h : m.Confined run made) (name : Bytes) {v : Value} (hv : v.Clean run) :
    (m.assign name v).Confined run made := by
  rw [Machine.assign]
  split
  · next locals hlocals =>
    exact ⟨h.globals, assignLocals_clean hv h.locals hlocals, h.kb, h.objects, h.calls⟩
  · split
    · exact ⟨h.globals.set hv name, h.locals, h.kb, h.objects, h.calls⟩
    · exact h.define name hv

end Machine.Confined

/-- Confinement is kept by every change of the scopes. -/
theorem gentle_confined : Gentle fun m m' => m.Confined run made → m'.Confined run made where
  refl _ h := h
  trans _ _ _ h h' hm := h' (h hm)
  mild m s hstep h := by
    cases hstep with
    | object address o fresh plain => exact h.setObject address (address + 1) plain.confined
    | setMeta r f same => exact h.withRun r _
    | event e => exact ⟨h.globals, h.locals, h.kb, h.objects, h.calls⟩

/-- What a clean scope has under a name, or null, is clean. -/
theorem Env.Clean.getD {env : Env} (h : env.Clean run) (name : Bytes) : ((env name).getD .null).Clean run := by
  cases hv : env name with
  | none => exact nofun
  | some v => exact h name v hv

/-- Throwing or answering a result changes nothing. -/
theorem confines_orThrow {α : Type} (x : Except RuntimeError α) :
    Confines run made (fun a => x = .ok a) (orThrow x) := by
  cases x with
  | ok a => exact Effect.keeps_pure rfl
  | error e => exact Effect.keeps_throw _

/-- What is read from the KB is clean. -/
theorem confines_readKb (r : ℕ) (key : Bytes) :
    Confines run made (fun v => (v.getD .null).Clean run) (readKb r key) := by
  apply Effect.keeps_gets
  intro m hm
  change ((if (m.store.runs r).hasKb then m.store.kb key else none).getD .null).Clean run
  split
  · exact hm.kb.getD key
  · exact nofun

/-- A callback that returns a value of the KB or of a field. -/
theorem confines_reads (w : World) {op : Native} (hop : op.Reads) (ctx : CallContext) (block : Option (Eval Unit)) :
    Confines run made (Value.Clean run) (callNative w op ctx block) := by
  have hfield (name : Bytes) : Confines run made (Value.Clean run) (headerField name ctx) := by
    unfold headerField
    split
    · exact Effect.keeps_gets fun m hm => (hm.objects _).fields.getD name
    · exact Effect.keeps_fault _
  have hentry (r : ℕ) (key : Bytes) :
      Confines run made (Value.Clean run) (readKb r key >>= fun v => pure (v.getD .null)) :=
    (confines_readKb r key).bind fun v hv => Effect.keeps_pure hv
  cases op with
  | kbGet r => exact (confines_orThrow _).bind fun key _ => hentry r key
  | kbGetScoped r =>
    change Confines run made (Value.Clean run) (kbGetScoped r ctx)
    unfold kbGetScoped
    split
    · exact (confines_orThrow _).bind fun key _ => hentry r key
    · exact Effect.keeps_throw _
  | headerExists => exact hfield _
  | headerValue => exact hfield _
  | _ => exact hop.elim

/-- A callback other than `plugin.run` and `Plugin.filter` of the run. -/
theorem confined_callNative (w : World) {op : Native} (hop : op ≠ .pluginFilter run)
    (hrun : ∀ r, op ≠ .pluginRun r) {ctx : CallContext} (hargs : Arguments.Clean run ⟨ctx.positional, ctx.named⟩)
    (block : Option (Eval Unit)) {m : Machine} (hm : m.Confined run made) :
    (callNative w op ctx block m).state.Confined run made := by
  have hkeeps {p : Eval Value}
      (hspec : Gently (fun m m' => m.Confined run made → m'.Confined run made) (fun _ => True) p) :
      (p m).state.Confined run made := hspec.state m hm
  have hchange (r : ℕ) (f : RunState → RunState) (m : Machine) (h : m.Confined run made) := h.withRun r f
  by_cases hgentle : op.IsGentle
  · exact (gently_callNative gentle_confined w hgentle ctx block).state m hm
  · cases op with
    | pluginFilter r => exact hkeeps (gently_pluginFilter gentle_confined r ctx fun f => hchange r _)
    | pluginSetService r =>
      apply hkeeps
      apply gently_pluginSetService gentle_confined
      · exact fun svc => hchange r _
      · exact fun version => hchange r _
      · exact fun product => hchange r _
      · exact fun svc m h => h.claim r svc hargs.named
    | kbSet r =>
      apply hkeeps
      apply gently_kbSet gentle_confined
      intro key v rest hpositional m h
      exact h.setKb key (hargs.positional v (by simp [hpositional]))
    | kbSetScoped r =>
      apply hkeeps
      apply gently_kbSetScoped gentle_confined
      intro scope key v rest name hpositional _ m h
      exact h.setKb name (hargs.positional v (by simp [hpositional]))
    | finding r => exact hkeeps (gently_findingFn gentle_confined w r ctx fun f => hchange r _)
    | pluginRun r => exact absurd rfl (hrun r)
    | _ => exact absurd trivial hgentle

/-- `plugin.run` keeps the machine confined when its block does. -/
theorem confines_pluginRun (r : ℕ) (ctx : CallContext) {block : Option (Eval Unit)}
    (hblock : ∀ body ∈ block, Confines run made (fun _ => True) body) :
    Confines run made (Value.Clean run) (pluginRun r ctx block) := by
  cases block with
  | none => exact Effect.keeps_throw _
  | some body =>
    apply Effect.Keeps.bind (P := fun _ => True) (Effect.keeps_gets fun _ _ => trivial)
    intro runs _
    cases runs with
    | false => exact Effect.keeps_pure nofun
    | true =>
      have hbody : Confines run made (fun _ => True) (catchReturn (inGlobalScope body)) := by
        apply Effect.Keeps.tryCatch
        · exact (hblock body rfl).within (fun _ h => h.enterGlobal) fun _ _ h h' => h.restore h'
        · intro e
          cases e with
          | returned v => exact Effect.keeps_pure trivial
          | runtimeError e => exact Effect.keeps_throw _
      exact hbody.bind fun _ _ => Effect.keeps_pure nofun

/-- A call of any other function. -/
theorem confines_invoke (w : World) {fn : NativeFn} (hop : fn.op ≠ .pluginFilter run) {ctx : CallContext}
    (hargs : Arguments.Clean run ⟨ctx.positional, ctx.named⟩) {block : Option (Eval Unit)}
    (hblock : ∀ body ∈ block, Confines run made (fun _ => True) body) :
    Confines run made (Value.Clean run) (invoke w fn ctx block) := by
  have hrecord : Confines run made (fun _ => True) (Effect.modify (·.record fn ctx)) :=
    Effect.keeps_modify fun m hm => hm.record hop ctx
  apply hrecord.bind
  intro _ _
  by_cases hrun : ∃ r, fn.op = .pluginRun r
  · obtain ⟨r, hr⟩ := hrun
    rw [hr]
    exact confines_pluginRun r ctx hblock
  · by_cases hreads : fn.op.Reads
    · exact confines_reads w hreads ctx block
    · intro m hm
      refine ⟨confined_callNative w hop (not_exists.mp hrun) hargs block hm, ?_⟩
      intro v m' hv
      exact Value.IsData.clean (returnsData_callNative w hreads ctx block m v m' hv)

/-- No arguments are clean. -/
theorem Arguments.clean_empty : Arguments.Clean run {} := ⟨by simp, Env.clean_empty⟩

/-- One more clean argument keeps the arguments clean. -/
theorem Arguments.Clean.push {args : Arguments} (h : args.Clean run) (name : Bytes) {v : Value} (hv : v.Clean run) :
    (args.push name v).Clean run := by
  rw [Arguments.push]
  split
  · refine ⟨fun u hu => ?_, h.named⟩
    rcases List.mem_append.mp hu with hu | hu
    · exact h.positional u hu
    · rw [List.mem_singleton.mp hu]
      exact hv
  · exact ⟨h.positional, h.named.set hv name⟩

/-- The methods of strings return no functions. -/
theorem callStringMethod_ne_function (s method : Bytes) (args : List Value) (pos : Pos) (fn : NativeFn) :
    callStringMethod s method args pos ≠ .ok (.function fn) := by
  have hslice : sliceString s args pos ≠ .ok (.function fn) := by
    intro h
    obtain ⟨start, -, h⟩ := exists_of_bind_ok h
    dsimp only at h
    split at h
    · obtain ⟨stop, -, h⟩ := exists_of_bind_ok h
      cases h
    · cases h
  have hbyte : byteAt s args pos ≠ .ok (.function fn) := by
    intro h
    obtain ⟨index, -, h⟩ := exists_of_bind_ok h
    split at h <;> cases h
  have hargument {what : Bytes} (f : Bytes → Value) (hf : ∀ a, f a ≠ .function fn) :
      (stringArgument args 0 what pos >>= fun a => .ok (f a)) ≠ .ok (.function fn) := by
    intro h
    obtain ⟨a, -, h⟩ := exists_of_bind_ok h
    exact hf a (Except.ok.inj h)
  have hite {c : Prop} [Decidable c] {x y : Except RuntimeError Value} (hx : x ≠ .ok (.function fn))
      (hy : y ≠ .ok (.function fn)) : (if c then x else y) ≠ .ok (.function fn) := by
    split
    · exact hx
    · exact hy
  unfold callStringMethod
  apply hite (by intro h; cases h)
  apply hite (hargument _ (by intro a h; cases h))
  apply hite (hargument _ (by intro a h; cases h))
  apply hite (hargument _ (by intro a h; cases h))
  apply hite hslice
  apply hite (by intro h; cases h)
  apply hite (by intro h; cases h)
  apply hite (by intro h; cases h)
  apply hite (hargument _ (by intro a h; cases h))
  exact hite hbyte (by intro h; cases h)

/-- A unary operator never answers a function. -/
theorem applyUnary_ne_function (op : UnOp) (operand : Value) (pos : Pos) (fn : NativeFn) :
    applyUnary op operand pos ≠ .ok (.function fn) := by
  unfold applyUnary
  split <;> exact nofun

/-- The operators return no functions, other than those that return an operand. -/
theorem applyBinary_ne_function (s : Store) {op : BinOp} (hop : op ≠ .and ∧ op ≠ .or) (l r : Value) (pos : Pos)
    (fn : NativeFn) : applyBinary s op l r pos ≠ .ok (.function fn) := by
  have hcompare (test : ℚ → ℚ → Bool) : compareNumbers test l r pos ≠ .ok (.function fn) := by
    unfold compareNumbers
    split <;> exact nofun
  cases op with
  | and => exact absurd rfl hop.1
  | or => exact absurd rfl hop.2
  | eq => exact nofun
  | neq => exact nofun
  | add =>
    simp only [applyBinary]
    split <;> simp
  | sub =>
    simp only [applyBinary]
    split <;> simp
  | lt => exact hcompare _
  | gt => exact hcompare _
  | lte => exact hcompare _
  | gte => exact hcompare _

/-- The result of an operation that returns no functions. -/
theorem confines_operation {x : Except RuntimeError Value} (h : ∀ fn, x ≠ .ok (.function fn)) :
    Confines run made (Value.Clean run) (orThrow x) := by
  apply (confines_orThrow x).mono
  intro v hv fn hfn
  subst hfn
  exact absurd hv (h fn)

/-- Reading a variable answers a clean value. -/
theorem confines_readVariable (name msg : Bytes) (pos : Pos) :
    Confines run made (Value.Clean run) (readVariable name msg pos) := by
  have hlookup : Confines run made (fun found => ∀ v, found = some v → Value.Clean run v)
      (Effect.gets fun m => lookup m.globals m.locals name) :=
    Effect.keeps_gets fun m hm v hv => lookup_clean hm.globals hm.locals hv
  apply hlookup.bind
  intro found hfound
  cases found with
  | none => exact Effect.keeps_throw _
  | some v => exact Effect.keeps_pure (hfound v rfl)

/-- The objects that programs read. -/
theorem confines_readObject (address : ℕ) : Confines run made (Object.Confined run) (readStore (·.objects address)) :=
  Effect.keeps_gets fun _ hm => hm.objects address

/-- Reading a member other than `filter` answers a clean value. -/
theorem confines_memberOf (receiver : Value) {member : Bytes} (hmember : member ≠ str "filter") (pos : Pos) :
    Confines run made (Value.Clean run) (memberOf receiver member pos) := by
  cases receiver with
  | object address =>
    apply (confines_readObject address).bind
    intro o ho
    split
    · next v _ hv => exact Effect.keeps_pure (ho.fields _ _ hv)
    · next fn _ hfn =>
      have hop : fn.op ≠ .pluginFilter run := fun hop => hmember ((ho.methods _ _ hfn).mpr hop)
      apply Effect.keeps_pure
      intro fn' hfn'
      cases hfn'
      exact hop
    · exact Effect.keeps_throw _
  | _ => exact Effect.keeps_throw _

/-- A method other than `filter` keeps the machine confined. -/
theorem confines_invokeMethod (w : World) (receiver : Value) {method : Bytes} (hmethod : method ≠ str "filter")
    {args : Arguments} (hargs : args.Clean run) {block : Option (Eval Unit)}
    (hblock : ∀ body ∈ block, Confines run made (fun _ => True) body) (pos : Pos) :
    Confines run made (Value.Clean run) (invokeMethod w receiver method args block pos) := by
  cases receiver with
  | string s => exact confines_operation (callStringMethod_ne_function s method args.positional pos)
  | object address =>
    apply (confines_readObject address).bind
    intro o ho
    split
    · next fn hfn => exact confines_invoke w (fun hop => hmethod ((ho.methods _ _ hfn).mpr hop)) hargs hblock
    · exact Effect.keeps_throw _
  | _ => exact Effect.keeps_throw _

/-- Calling a clean value keeps the machine confined. -/
theorem confines_invokeFunction (w : World) {callee : Value} (hcallee : callee.Clean run) {args : Arguments}
    (hargs : args.Clean run) {block : Option (Eval Unit)}
    (hblock : ∀ body ∈ block, Confines run made (fun _ => True) body) (pos : Pos) :
    Confines run made (Value.Clean run) (invokeFunction w callee args block pos) := by
  cases callee with
  | function fn => exact confines_invoke w (hcallee fn rfl) hargs hblock
  | _ => exact Effect.keeps_throw _

end Confined

mutual

/-- The member occurs in the expression. -/
def Expr.mentions (name : Bytes) : Expr → Bool
  | .null _ | .bool _ _ | .number _ _ | .string _ _ | .ident _ _ | .scoped _ _ _ => false
  | .member _ object member => member == name || object.mentions name
  | .call _ callee args block => callee.mentions name || argsMention name args || blockMentions name block
  | .unary _ _ operand => operand.mentions name
  | .binary _ _ lhs rhs => lhs.mentions name || rhs.mentions name

/-- The member occurs in an argument. -/
def argsMention (name : Bytes) : List CallArg → Bool
  | [] => false
  | .mk _ value :: args => value.mentions name || argsMention name args

/-- The member occurs in the block. -/
def blockMentions (name : Bytes) : Option (List Stmt) → Bool
  | none => false
  | some body => stmtsMention name body

/-- The member occurs in the value. -/
def valueMentions (name : Bytes) : Option Expr → Bool
  | none => false
  | some value => value.mentions name

/-- The member occurs in the statement. -/
def Stmt.mentions (name : Bytes) : Stmt → Bool
  | .expr _ value => value.mentions name
  | .assign _ _ value => value.mentions name
  | .ifThen _ condition thenBranch elseBranch =>
    condition.mentions name || stmtsMention name thenBranch || stmtsMention name elseBranch
  | .ret _ value => valueMentions name value
  | .includeModule _ _ => false

/-- The member occurs in a statement. -/
def stmtsMention (name : Bytes) : List Stmt → Bool
  | [] => false
  | stmt :: stmts => stmt.mentions name || stmtsMention name stmts

end

section

variable {run : ℕ} {made : List FilterArguments} (w : World)

mutual

/-- An expression without `filter` calls `Plugin.filter` no more. -/
theorem confines_expr : ∀ e : Expr, e.mentions (str "filter") = false →
    Confines run made (Value.Clean run) (evalExpr w e)
  | .null _, _ => Effect.keeps_pure nofun
  | .bool _ _, _ => Effect.keeps_pure nofun
  | .number _ _, _ => Effect.keeps_pure nofun
  | .string _ _, _ => Effect.keeps_pure nofun
  | .ident _ _, _ => confines_readVariable _ _ _
  | .scoped _ _ _, _ => confines_readVariable _ _ _
  | .member _ object member, h => by
    simp only [Expr.mentions, Bool.or_eq_false_iff, beq_eq_false_iff_ne] at h
    exact (confines_expr object h.2).bind fun v _ => confines_memberOf v h.1 _
  | .call pos callee args block, h => by
    simp only [Expr.mentions, Bool.or_eq_false_iff] at h
    obtain ⟨⟨hcallee, hargs⟩, hblock⟩ := h
    have hplain := (confines_args args hargs Arguments.clean_empty).bind fun args' hargs' =>
      (confines_expr callee hcallee).bind fun v hv =>
        confines_invokeFunction w hv hargs' (confines_block block hblock) pos
    cases callee with
    | member _ object method =>
      simp only [Expr.mentions, Bool.or_eq_false_iff, beq_eq_false_iff_ne] at hcallee
      exact (confines_args args hargs Arguments.clean_empty).bind fun args' hargs' =>
        (confines_expr object hcallee.2).bind fun v _ =>
          confines_invokeMethod w v hcallee.1 hargs' (confines_block block hblock) pos
    | _ => exact hplain
  | .unary pos op operand, h =>
    (confines_expr operand h).bind fun v _ => confines_operation (applyUnary_ne_function op v pos)
  | .binary pos op lhs rhs, h => by
    simp only [Expr.mentions, Bool.or_eq_false_iff] at h
    have hr := confines_expr rhs h.2
    apply (confines_expr lhs h.1).bind
    intro l hl
    have hboth (hop : op ≠ .and ∧ op ≠ .or) : Confines run made (Value.Clean run) (do
        let r ← evalExpr w rhs
        let result ← readStore fun s => applyBinary s op l r pos
        orThrow result) := by
      apply hr.bind
      intro r _
      apply Effect.Keeps.bind (P := fun x : Except RuntimeError Value => ∀ fn, x ≠ .ok (.function fn))
      · exact Effect.keeps_gets fun m _ => applyBinary_ne_function m.store hop l r pos
      · exact fun x hx => confines_operation hx
    cases op with
    | and =>
      change Confines run made (Value.Clean run) (if isTruthy l then evalExpr w rhs else pure l)
      split
      · exact hr
      · exact Effect.keeps_pure hl
    | or =>
      change Confines run made (Value.Clean run) (if isTruthy l then pure l else evalExpr w rhs)
      split
      · exact Effect.keeps_pure hl
      · exact hr
    | _ => exact hboth ⟨nofun, nofun⟩

/-- Arguments that do not mention `filter` keep the machine confined. -/
theorem confines_args : ∀ args : List CallArg, argsMention (str "filter") args = false →
    ∀ {done : Arguments}, done.Clean run → Confines run made (Arguments.Clean run) (evalArgs w args done)
  | [], _, _, hdone => Effect.keeps_pure hdone
  | .mk name value :: args, h, _, hdone => by
    simp only [argsMention, Bool.or_eq_false_iff] at h
    exact (confines_expr value h.1).bind fun v hv => confines_args args h.2 (hdone.push name hv)

/-- A block that does not mention `filter` keeps the machine confined. -/
theorem confines_block : ∀ block : Option (List Stmt), blockMentions (str "filter") block = false →
    ∀ body ∈ evalBlock w block, Confines run made (fun _ => True) body
  | none, _, _, hbody => nomatch hbody
  | some stmts, h, _, hbody => by
    cases hbody
    exact confines_stmts stmts h

/-- So does a statement. -/
theorem confines_stmt : ∀ s : Stmt, s.mentions (str "filter") = false →
    Confines run made (fun _ => True) (execStmt w s)
  | .includeModule _ _, _ => Effect.keeps_pure trivial
  | .expr _ value, h => (confines_expr value h).bind fun _ _ => Effect.keeps_pure trivial
  | .assign _ name value, h =>
    (confines_expr value h).bind fun _ hv => Effect.keeps_modify fun _ hm => hm.assign name hv
  | .ifThen _ condition thenBranch elseBranch, h => by
    simp only [Stmt.mentions, Bool.or_eq_false_iff] at h
    obtain ⟨⟨hcondition, hthen⟩, helse⟩ := h
    have hscope {body : Eval Unit} (hbody : Confines run made (fun _ => True) body) :
        Confines run made (fun _ => True) (inBlockScope body) :=
      hbody.within (fun _ hm => hm.push) fun _ _ _ hm => hm.pop
    have hthen := hscope (confines_stmts thenBranch hthen)
    have helse := hscope (confines_stmts elseBranch helse)
    apply (confines_expr condition hcondition).bind
    intro cond _
    split
    · exact hthen
    · split
      · exact Effect.keeps_pure trivial
      · exact helse
  | .ret _ value, h => (confines_returnValue value h).bind fun _ _ => Effect.keeps_throw _

/-- A return value that does not mention `filter` keeps the machine confined. -/
theorem confines_returnValue : ∀ value : Option Expr, valueMentions (str "filter") value = false →
    Confines run made (fun _ => True) (evalReturnValue w value)
  | none, _ => Effect.keeps_pure trivial
  | some value, h => (confines_expr value h).mono fun _ _ => trivial

/-- Statements that do not mention `filter` keep the machine confined. -/
theorem confines_stmts : ∀ stmts : List Stmt, stmtsMention (str "filter") stmts = false →
    Confines run made (fun _ => True) (execStmts w stmts)
  | [], _ => Effect.keeps_pure trivial
  | s :: stmts, h => by
    simp only [stmtsMention, Bool.or_eq_false_iff] at h
    exact (confines_stmt s h.1).bind fun _ _ => confines_stmts stmts h.2

end

end

end ZeroTrust.Ztl
