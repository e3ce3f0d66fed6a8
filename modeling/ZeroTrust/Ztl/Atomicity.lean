import ZeroTrust.Ztl.Steps

/-!
# Failing calls

A callback checks its arguments one by one. Most check all of them before they change anything; `plugin.filter`
and `plugin.set_service` change the state of the run in between.
-/

namespace ZeroTrust.Ztl

open Effect (Atomic)
open Function (update_self update_eq_self)

/-- What plugins and reports see of a run: its metadata, what it detected, its findings, the KB and the fields
of its target. -/
structure RunView where
  pluginMeta : PluginMeta
  setService : Bytes
  setProduct : Bytes
  setVersion : Bytes
  findings : List FindingOut
  kb : Env
  targetFields : Option Env

/-- What is seen of a run in a store. -/
def Store.view (s : Store) (run : ℕ) : RunView where
  pluginMeta := (s.runs run).pluginMeta
  setService := (s.runs run).setService
  setProduct := (s.runs run).setProduct
  setVersion := (s.runs run).setVersion
  findings := (s.runs run).findings
  kb := s.kb
  targetFields := (s.runs run).target.map fun address => (s.objects address).fields

/-- The callbacks of the plugin object but for `plugin.run`, of the KB and of the CVE database, and `finding`. -/
def Native.OfLibrary : Native → Prop
  | .pluginName _ | .pluginDescription _ | .pluginCategory _ | .pluginFilter _ | .pluginSetService _ => True
  | .finding _ => True
  | .kbSet _ | .kbGet _ | .kbHas _ | .kbSetScoped _ | .kbGetScoped _ | .kbHasScoped _ => True
  | .cveCheck | .cveVerify | .cveLookup => True
  | _ => False

section Checks

variable {α β : Type} (w : World) (run : ℕ) (ctx : CallContext)

/-- An error changes nothing. -/
theorem atomic_runtimeError (pos : Pos) (msg : Bytes) : Atomic (runtimeError pos msg : Eval α) :=
  Effect.atomic_throw _

/-- A check before an atomic computation. -/
theorem atomic_orThrow_bind {k : α → Eval β} (hk : ∀ a, Atomic (k a)) (x : Except RuntimeError α) :
    Atomic (orThrow x >>= k) := by
  cases x with
  | ok a => exact hk a
  | error e => exact Effect.atomic_throw _

/-- A computation that starts by reading the store is atomic when what follows is. -/
theorem atomic_readStore_bind {k : α → Eval β} (hk : ∀ a, Atomic (k a)) (f : Store → α) :
    Atomic (readStore f >>= k) := Atomic.gets_bind hk _

/-- A change without a check behind it. -/
theorem atomic_changeStore (f : Store → Store) (v : α) : Atomic (changeStore f >>= fun _ => pure v : Eval α) :=
  Effect.atomic_of_ok fun _ => ⟨_, _, rfl⟩

/-- Building an object succeeds. -/
theorem atomic_newObject (typeName : Bytes) (fields : List (Bytes × Value)) (methods : List (Bytes × Native)) :
    Atomic (newObject typeName fields methods) := Effect.atomic_of_ok fun _ => ⟨_, _, rfl⟩

/-- `plugin.name` and its siblings change something only when they succeed. -/
theorem atomic_pluginSetter (what : Bytes) (set : PluginMeta → Bytes → PluginMeta) :
    Atomic (pluginSetter run what set ctx) := by
  rw [pluginSetter]
  split
  · exact Effect.atomic_of_ok fun _ => ⟨_, _, rfl⟩
  · exact atomic_orThrow_bind (fun _ => Effect.atomic_of_ok fun _ => ⟨_, _, rfl⟩) _

/-- `finding` changes something only when it succeeds. -/
theorem atomic_findingFn : Atomic (findingFn w run ctx) := by
  intro m e m' h
  cases hf : findingOf (m.store.runs run) m.store ctx with
  | error reason =>
    rw [findingFn, readStore, Effect.gets_bind_run, hf, orThrow_error_bind] at h
    exact Effect.atomic_throw _ m e m' h
  | ok f =>
    rw [findingFn_run w run hf] at h
    cases h

/-- The common end of `Kb.set` and `Kb.set_scoped`. -/
theorem atomic_kbWrite (key : Bytes) (v : Value) :
    Atomic (do
      if ← readRun run (·.hasKb) then changeStore fun s => { s with kb := s.kb.set key v }
      return Value.null : Eval Value) := by
  apply atomic_readStore_bind
  intro hasKb
  cases hasKb with
  | false => exact Effect.atomic_of_ok fun _ => ⟨_, _, rfl⟩
  | true => exact atomic_changeStore _ _

/-- The common end of the callbacks that read the KB. -/
theorem atomic_kbRead (key : Bytes) (f : Option Value → Value) :
    Atomic (do return f (← readKb run key) : Eval Value) := Effect.atomic_of_ok fun _ => ⟨_, _, rfl⟩

/-- `kb.set` changes something only when it succeeds. -/
theorem atomic_kbSet : Atomic (kbSet run ctx) := by
  rw [kbSet]
  split
  · exact atomic_orThrow_bind (fun key => atomic_kbWrite run key _) _
  · exact atomic_runtimeError _ _

/-- `kb.set_scoped` changes something only when it succeeds. -/
theorem atomic_kbSetScoped : Atomic (kbSetScoped run ctx) := by
  rw [kbSetScoped]
  split
  · exact atomic_orThrow_bind (fun key => atomic_kbWrite run key _) _
  · exact atomic_runtimeError _ _

/-- `kb.get` changes nothing. -/
theorem atomic_kbGet : Atomic (kbGet run ctx) :=
  atomic_orThrow_bind (fun key => atomic_kbRead run key fun v => v.getD .null) _

/-- `kb.has` changes nothing. -/
theorem atomic_kbHas : Atomic (kbHas run ctx) :=
  atomic_orThrow_bind (fun key => atomic_kbRead run key fun v => .bool v.isSome) _

/-- `kb.get_scoped` changes nothing. -/
theorem atomic_kbGetScoped : Atomic (kbGetScoped run ctx) := by
  rw [kbGetScoped]
  split
  · exact atomic_orThrow_bind (fun key => atomic_kbRead run key fun v => v.getD .null) _
  · exact atomic_runtimeError _ _

/-- `kb.has_scoped` changes nothing. -/
theorem atomic_kbHasScoped : Atomic (kbHasScoped run ctx) := by
  rw [kbHasScoped]
  split
  · exact atomic_orThrow_bind (fun key => atomic_kbRead run key fun v => .bool v.isSome) _
  · exact atomic_runtimeError _ _

/-- `cve.check` changes something only when it succeeds. -/
theorem atomic_cveCheckFn : Atomic (cveCheckFn w ctx) := by
  apply atomic_orThrow_bind
  intro id
  apply atomic_orThrow_bind
  intro product
  apply atomic_orThrow_bind
  intro version
  exact atomic_newObject _ _ _

/-- `cve.verify` changes something only when it succeeds. -/
theorem atomic_cveVerifyFn : Atomic (cveVerifyFn w ctx) := by
  rw [cveVerifyFn]
  split
  · exact atomic_runtimeError _ _
  · apply atomic_readStore_bind
    intro o
    split
    · apply atomic_orThrow_bind
      intro id
      apply atomic_orThrow_bind
      intro product
      apply atomic_orThrow_bind
      intro version
      exact atomic_newObject _ _ _
    · exact atomic_runtimeError _ _
  · exact atomic_runtimeError _ _

/-- `cve.lookup` changes something only when it succeeds. -/
theorem atomic_cveLookupFn : Atomic (cveLookupFn w ctx) := by
  apply atomic_orThrow_bind
  intro product
  apply atomic_orThrow_bind
  intro version
  apply atomic_orThrow_bind
  intro product
  apply atomic_orThrow_bind
  intro version
  exact Effect.atomic_of_ok fun _ => ⟨_, _, rfl⟩

end Checks

/-- An argument that is given, but is no string. -/
def BadText (argument : Option Value) : Prop := ∃ v ∈ argument, ∀ s, v ≠ .string s

/-- A bad service is given with `any` only where `any` has been set before. -/
def FilterKeeps (pluginMeta : PluginMeta) (ctx : CallContext) : Prop :=
  BadText (ctx.named (str "service")) → ∀ v ∈ ctx.named (str "any"), isTruthy v = true → pluginMeta.filterAny = true

/-- A bad version or product is given with the service that is set already, and a bad product with the
version that is set already, or none. -/
def SetServiceKeeps (state : RunState) (ctx : CallContext) : Prop :=
  ∀ svc rest, ctx.positional = .string svc :: rest →
    (BadText (ctx.named (str "version")) ∨ BadText (ctx.named (str "product")) → svc = state.setService) ∧
    (BadText (ctx.named (str "product")) → ∀ version, ctx.named (str "version") = some (.string version) →
      version = state.setVersion)

/-- If the call fails, it does so before it changes anything, or it writes what is there already. -/
def Native.Keeps (op : Native) (ctx : CallContext) (s : Store) : Prop :=
  match op with
  | .pluginFilter run => FilterKeeps (s.runs run).pluginMeta ctx
  | .pluginSetService run => SetServiceKeeps (s.runs run) ctx
  | _ => True

/-- A value that is no string is refused where a string is needed. -/
theorem needString_error {v : Value} (h : ∀ s, v ≠ .string s) (what : Bytes) (pos : Pos) :
    ∃ e, needString v what pos = .error e := by
  cases v with
  | string s => exact absurd rfl (h s)
  | null => exact ⟨_, rfl⟩
  | bool b => exact ⟨_, rfl⟩
  | number q => exact ⟨_, rfl⟩
  | object address => exact ⟨_, rfl⟩
  | function fn => exact ⟨_, rfl⟩

/-- A named argument that is no string is an error. -/
theorem namedString_error {ctx : CallContext} {key : Bytes} (h : BadText (ctx.named key)) (default what : Bytes) :
    ∃ e, ctx.namedString key default what = .error e := by
  obtain ⟨v, hv, hbad⟩ := h
  obtain ⟨e, he⟩ := needString_error hbad what ctx.pos
  refine ⟨e, ?_⟩
  rw [CallContext.namedString, hv]
  exact he

/-- A named argument that is not bad is read, and differs from the default only if it is given so. -/
theorem namedString_ok {ctx : CallContext} {key : Bytes} (h : ¬BadText (ctx.named key)) (default what : Bytes) :
    ∃ s, ctx.namedString key default what = .ok s ∧
      (s = default ↔ ∀ t, ctx.named key = some (.string t) → t = default) := by
  cases hv : ctx.named key with
  | none =>
    refine ⟨default, ?_, iff_of_true rfl nofun⟩
    rw [CallContext.namedString, hv]
  | some v =>
    by_cases hs : ∃ s, v = .string s
    · obtain ⟨s, rfl⟩ := hs
      refine ⟨s, ?_, ?_⟩
      · rw [CallContext.namedString, hv]
        rfl
      · constructor
        · rintro rfl t ht
          cases ht
          rfl
        · exact fun hall => hall s rfl
    · exact absurd ⟨v, hv, fun s hvs => hs ⟨s, hvs⟩⟩ h

/-- A change of the metadata, the service and the version is not seen exactly if it is none. -/
theorem Store.view_withRun_iff {s : Store} {run : ℕ} {f : RunState → RunState}
    (hf : ∀ state, f state = { state with
      pluginMeta := (f state).pluginMeta, setService := (f state).setService, setVersion := (f state).setVersion }) :
    (∀ r, (s.withRun run f).view r = s.view r) ↔ f (s.runs run) = s.runs run := by
  constructor
  · intro h
    have hview := h run
    simp only [Store.view, Store.withRun, update_self, RunView.mk.injEq] at hview
    rw [hf, hview.1, hview.2.1, hview.2.2.2.1]
  · intro h r
    rw [Store.withRun, h, update_eq_self]

/-- What holds after a call that throws is said about one machine. -/
theorem forall_throw_iff {p : Eval Value} {m m₁ : Machine} {e : RuntimeError}
    (h : p m = .throw (.runtimeError e) m₁) (P : Machine → Prop) :
    (∀ e' m', p m = .throw (.runtimeError e') m' → P m') ↔ P m₁ := by
  constructor
  · exact fun hall => hall e m₁ h
  · intro hP e' m' h'
    cases h.symm.trans h'
    exact hP

section Keeps

variable (run : ℕ) (ctx : CallContext) (m : Machine)

/-- `plugin.filter` sets `any` before it checks the service. -/
theorem pluginFilter_keeps_iff :
    (∀ e m', pluginFilter run ctx m = .throw (.runtimeError e) m' → ∀ r, m'.store.view r = m.store.view r) ↔
      FilterKeeps (m.store.runs run).pluginMeta ctx := by
  by_cases hbad : BadText (ctx.named (str "service"))
  · obtain ⟨v, hv, hstring⟩ := id hbad
    obtain ⟨e, he⟩ := needString_error hstring (str "filter service") ctx.pos
    have hthrow : pluginFilter run ctx m = .throw (.runtimeError e) { m with
        store := m.store.withRun run fun state => { state with pluginMeta := { state.pluginMeta with
          filterAny := state.pluginMeta.filterAny || ((ctx.named (str "any")).map isTruthy).getD false } } } := by
      rw [pluginFilter, Option.mem_def.mp hv]
      dsimp only
      rw [he]
      rfl
    rw [forall_throw_iff hthrow fun m' => ∀ r, m'.store.view r = m.store.view r,
      Store.view_withRun_iff fun _ => rfl, FilterKeeps, imp_iff_right hbad]
    cases hany : ctx.named (str "any") with
    | none => simp
    | some any =>
      constructor
      · intro hsame any' hany' htruthy
        cases hany'
        have hfilter := congrArg (fun state => state.pluginMeta.filterAny) hsame
        rw [← hfilter]
        simp [htruthy]
      · intro hset
        cases htruthy : isTruthy any with
        | false => simp [htruthy]
        | true =>
          change { m.store.runs run with pluginMeta := { (m.store.runs run).pluginMeta with
            filterAny := (m.store.runs run).pluginMeta.filterAny || isTruthy any } } = m.store.runs run
          rw [htruthy, Bool.or_true, ← hset any rfl htruthy]
  · apply iff_of_true
    · intro e m' hthrow
      cases hv : ctx.named (str "service") with
      | none =>
        rw [pluginFilter, hv] at hthrow
        cases hthrow
      | some v =>
        by_cases hs : ∃ s, v = .string s
        · obtain ⟨s, rfl⟩ := hs
          rw [pluginFilter, hv] at hthrow
          cases hthrow
        · exact absurd ⟨v, hv, fun s hvs => hs ⟨s, hvs⟩⟩ hbad
    · exact fun h => absurd h hbad

/-- A bad version is noticed when the service is set. -/
theorem pluginSetService_version {svc : Bytes} {rest : List Value} (hfirst : ctx.positional = .string svc :: rest)
    (hversion : BadText (ctx.named (str "version"))) :
    ∃ e, pluginSetService run ctx m = .throw (.runtimeError e) { m with
      store := m.store.withRun run fun state => { state with setService := svc } } := by
  obtain ⟨e, he⟩ := namedString_error hversion (m.store.runs run).setVersion (str "version")
  refine ⟨e, ?_⟩
  rw [pluginSetService, CallContext.firstString, hfirst]
  simp only [needString, orThrow_ok_bind, changeRun, changeStore, Effect.modify_bind_run, readRun, readStore,
    Effect.gets_bind_run, Store.withRun, update_self, he, orThrow_error_bind, Effect.throw_run]

/-- A bad product is noticed when the service and the version are set. -/
theorem pluginSetService_product {svc version : Bytes} {rest : List Value}
    (hfirst : ctx.positional = .string svc :: rest)
    (hversion : ctx.namedString (str "version") (m.store.runs run).setVersion = .ok version)
    (hproduct : BadText (ctx.named (str "product"))) :
    ∃ e, pluginSetService run ctx m = .throw (.runtimeError e) { m with
      store := m.store.withRun run fun state => { state with setService := svc, setVersion := version } } := by
  obtain ⟨e, he⟩ := namedString_error hproduct (m.store.runs run).setProduct (str "product")
  refine ⟨e, ?_⟩
  rw [pluginSetService, CallContext.firstString, hfirst]
  simp only [needString, orThrow_ok_bind, changeRun, changeStore, Effect.modify_bind_run, readRun, readStore,
    Effect.gets_bind_run, Store.withRun, update_self, hversion, he, orThrow_error_bind, Effect.throw_run,
    Function.update_idem]

/-- Good arguments are accepted. -/
theorem pluginSetService_ok {svc version product : Bytes} {rest : List Value}
    (hfirst : ctx.positional = .string svc :: rest)
    (hversion : ctx.namedString (str "version") (m.store.runs run).setVersion = .ok version)
    (hproduct : ctx.namedString (str "product") (m.store.runs run).setProduct = .ok product) :
    pluginSetService run ctx m = .ok .null { m with
      store := (m.store.withRun run fun state =>
        { state with setService := svc, setVersion := version, setProduct := product }).claim run svc ctx.named } := by
  rw [pluginSetService, CallContext.firstString, hfirst]
  simp only [needString, orThrow_ok_bind, changeRun, changeStore, Effect.modify_bind_run, readRun, readStore,
    Effect.gets_bind_run, Store.withRun, update_self, hversion, hproduct, Function.update_idem]
  rfl

/-- Without a service name nothing is done. -/
theorem pluginSetService_nameless (hfirst : ∀ svc rest, ctx.positional ≠ .string svc :: rest) :
    ∃ e, pluginSetService run ctx m = .throw (.runtimeError e) m := by
  have hname : ∃ e, ctx.firstString (str "set_service(name) requires 1 argument") (str "service name") = .error e := by
    rw [CallContext.firstString]
    cases hpositional : ctx.positional with
    | nil => exact ⟨_, rfl⟩
    | cons first rest =>
      apply needString_error
      rintro svc rfl
      exact hfirst svc rest hpositional
  obtain ⟨e, he⟩ := hname
  refine ⟨e, ?_⟩
  rw [pluginSetService, he]
  rfl

/-- `plugin.set_service` sets the service before it checks the version, and the version before the product. -/
theorem pluginSetService_keeps_iff :
    (∀ e m', pluginSetService run ctx m = .throw (.runtimeError e) m' → ∀ r, m'.store.view r = m.store.view r) ↔
      SetServiceKeeps (m.store.runs run) ctx := by
  by_cases hnamed : ∃ svc rest, ctx.positional = .string svc :: rest
  · obtain ⟨svc, rest, hfirst⟩ := hnamed
    have hkeeps : SetServiceKeeps (m.store.runs run) ctx ↔
        (BadText (ctx.named (str "version")) ∨ BadText (ctx.named (str "product")) →
          svc = (m.store.runs run).setService) ∧
        (BadText (ctx.named (str "product")) → ∀ version, ctx.named (str "version") = some (.string version) →
          version = (m.store.runs run).setVersion) := by
      constructor
      · exact fun h => h svc rest hfirst
      · intro h svc' rest' hfirst'
        cases hfirst.symm.trans hfirst'
        exact h
    rw [hkeeps]
    by_cases hversion : BadText (ctx.named (str "version"))
    · obtain ⟨e, hthrow⟩ := pluginSetService_version run ctx m hfirst hversion
      rw [forall_throw_iff hthrow fun m' => ∀ r, m'.store.view r = m.store.view r, Store.view_withRun_iff fun _ => rfl]
      constructor
      · intro hsame
        refine ⟨fun _ => congrArg RunState.setService hsame, fun _ version hgiven => ?_⟩
        obtain ⟨v, hv, hstring⟩ := hversion
        exact absurd (Option.some.inj (hv.symm.trans hgiven)) (hstring version)
      · intro h
        rw [h.1 (.inl hversion)]
    · obtain ⟨version, hv, hkept⟩ := namedString_ok hversion (m.store.runs run).setVersion (str "version")
      by_cases hproduct : BadText (ctx.named (str "product"))
      · obtain ⟨e, hthrow⟩ := pluginSetService_product run ctx m hfirst hv hproduct
        rw [forall_throw_iff hthrow fun m' => ∀ r, m'.store.view r = m.store.view r,
          Store.view_withRun_iff fun _ => rfl]
        constructor
        · intro hsame
          exact ⟨fun _ => congrArg RunState.setService hsame, fun _ => hkept.mp (congrArg RunState.setVersion hsame)⟩
        · intro h
          rw [h.1 (.inr hproduct), hkept.mpr (h.2 hproduct)]
      · obtain ⟨product, hp, -⟩ := namedString_ok hproduct (m.store.runs run).setProduct (str "product")
        apply iff_of_true
        · intro e m' hthrow
          cases (pluginSetService_ok run ctx m hfirst hv hp).symm.trans hthrow
        · exact ⟨fun h => absurd h (not_or.mpr ⟨hversion, hproduct⟩), fun h => absurd h hproduct⟩
  · have hnameless : ∀ svc rest, ctx.positional ≠ .string svc :: rest := fun svc rest h => hnamed ⟨svc, rest, h⟩
    obtain ⟨e, hthrow⟩ := pluginSetService_nameless run ctx m hnameless
    rw [forall_throw_iff hthrow fun m' => ∀ r, m'.store.view r = m.store.view r]
    exact iff_of_true (fun _ => rfl) fun svc rest h => absurd h (hnameless svc rest)

end Keeps

/-- A call that fails changes nothing exactly if it keeps what it writes before its checks. -/
theorem callNative_keeps_iff (w : World) {op : Native} (h : op.OfLibrary) (ctx : CallContext)
    (block : Option (Eval Unit)) (m : Machine) :
    (∀ e m', callNative w op ctx block m = .throw (.runtimeError e) m' → ∀ run, m'.store.view run = m.store.view run) ↔
      op.Keeps ctx m.store := by
  have hatomic : Atomic (callNative w op ctx block) → (∀ e m',
      callNative w op ctx block m = .throw (.runtimeError e) m' → ∀ run, m'.store.view run = m.store.view run) := by
    intro hatomic e m' hthrow run
    rw [hatomic _ _ _ hthrow]
  cases op with
  | pluginFilter run => exact pluginFilter_keeps_iff run ctx m
  | pluginSetService run => exact pluginSetService_keeps_iff run ctx m
  | pluginName run => exact iff_of_true (hatomic (atomic_pluginSetter run ctx _ _)) trivial
  | pluginDescription run => exact iff_of_true (hatomic (atomic_pluginSetter run ctx _ _)) trivial
  | pluginCategory run => exact iff_of_true (hatomic (atomic_pluginSetter run ctx _ _)) trivial
  | finding run => exact iff_of_true (hatomic (atomic_findingFn w run ctx)) trivial
  | kbSet run => exact iff_of_true (hatomic (atomic_kbSet run ctx)) trivial
  | kbGet run => exact iff_of_true (hatomic (atomic_kbGet run ctx)) trivial
  | kbHas run => exact iff_of_true (hatomic (atomic_kbHas run ctx)) trivial
  | kbSetScoped run => exact iff_of_true (hatomic (atomic_kbSetScoped run ctx)) trivial
  | kbGetScoped run => exact iff_of_true (hatomic (atomic_kbGetScoped run ctx)) trivial
  | kbHasScoped run => exact iff_of_true (hatomic (atomic_kbHasScoped run ctx)) trivial
  | cveCheck => exact iff_of_true (hatomic (atomic_cveCheckFn w ctx)) trivial
  | cveVerify => exact iff_of_true (hatomic (atomic_cveVerifyFn w ctx)) trivial
  | cveLookup => exact iff_of_true (hatomic (atomic_cveLookupFn w ctx)) trivial
  | _ => exact h.elim

/-- `set_service("ssh", version: 5)`. -/
def numberAsVersion : CallContext where
  self := .null
  positional := [.string (str "ssh")]
  named := Env.empty.set (str "version") (.number 5)
  pos := ⟨1, 1⟩

/-- The call fails and does not keep what was set, which is nothing. -/
theorem callNative_keeps_iff_version : Native.OfLibrary (.pluginSetService 0) ∧
    ((∀ e m', callNative ⟨silentNetwork, []⟩ (.pluginSetService 0) numberAsVersion none {} =
        .throw (.runtimeError e) m' → ∀ run, m'.store.view run = Store.view {} run) ↔
      Native.Keeps (.pluginSetService 0) numberAsVersion {}) :=
  ⟨trivial, callNative_keeps_iff ⟨silentNetwork, []⟩ (show Native.OfLibrary (.pluginSetService 0) from trivial)
    numberAsVersion none {}⟩

/-- The service is set by the call that fails. -/
theorem failing_setService_writes : ¬∀ (w : World) (op : Native) (ctx : CallContext) (block : Option (Eval Unit))
    (m : Machine), op.OfLibrary → ∀ e m', callNative w op ctx block m = .throw (.runtimeError e) m' →
      ∀ run, m'.store.view run = m.store.view run := by
  intro h
  obtain ⟨e, hthrow⟩ := pluginSetService_version 0 numberAsVersion {} rfl ⟨.number 5, rfl, nofun⟩
  have hview := h ⟨silentNetwork, []⟩ (.pluginSetService 0) numberAsVersion none {} trivial e _ hthrow 0
  exact absurd (congrArg RunView.setService hview) (by decide)

end ZeroTrust.Ztl
