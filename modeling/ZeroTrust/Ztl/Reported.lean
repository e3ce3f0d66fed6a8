import ZeroTrust.Lib.Runs
import ZeroTrust.Ztl.Atomicity
import Mathlib.Data.Fintype.Basic

/-!
# What is known and what is reported

`run_for_port` keeps the service, the product and the version of a port twice: in the KB, where plugins and
targets read them, and in `out_info`, which is reported. The two agree while the calls of `plugin.set_service`
leave both with the same texts.
-/

namespace ZeroTrust.Ztl

open Function (update update_self update_of_ne)

/-- What plugins detect. -/
inductive InfoKey
  | service | product | version
deriving DecidableEq

instance : Fintype InfoKey where
  elems := {.service, .product, .version}
  complete key := by cases key <;> decide

/-- The key in the KB. -/
def InfoKey.text : InfoKey → Bytes
  | .service => str "service"
  | .product => str "product"
  | .version => str "version"

/-- The entry of `DetectedInfo`. -/
def DetectedInfo.get (info : DetectedInfo) : InfoKey → Bytes
  | .service => info.service
  | .product => info.product
  | .version => info.version

/-- What a run has set. -/
def RunState.detected (state : RunState) : InfoKey → Bytes
  | .service => state.setService
  | .product => state.setProduct
  | .version => state.setVersion

/-- What a call of `plugin.set_service` gives. -/
def CallContext.given (ctx : CallContext) : InfoKey → Option Bytes
  | .service => match ctx.positional with
    | .string svc :: _ => some svc
    | _ => none
  | key => match ctx.named key.text with
    | some (.string s) => some s
    | _ => none

/-- Different fields have different keys. -/
theorem InfoKey.text_injective : Function.Injective InfoKey.text := by decide

/-- What the run reports replaces what was reported before, unless it is empty. -/
theorem DetectedInfo.absorb_get (info : DetectedInfo) (state : RunState) (key : InfoKey) :
    (info.absorb state.outcome).get key = claimed (info.get key) (state.detected key) := by
  cases key <;> rfl

/-- What the KB knows is what is reported. -/
def PortRun.Agrees (st : PortRun) : Prop :=
  ∀ key v, st.store.kb (InfoKey.text key) = some v → v = .string (st.info.get key)

/-- The call writes one of the keys through `kb.set`. -/
def CallRecord.SetsInfo (c : CallRecord) : Prop :=
  match c.fn.op, c.ctx.positional with
  | .kbSet _, .string key :: _ :: _ => ∃ k : InfoKey, key = k.text
  | _, _ => False

/-- A version or a product that is no string. -/
def CallContext.Refused (ctx : CallContext) : Prop :=
  BadText (ctx.named (str "version")) ∨ BadText (ctx.named (str "product"))

/-- An accepted call of the run in progress gives texts that replace what was reported, and one through the
plugin object of another run gives what is reported already. A refused call of the run in progress sets nothing
that the KB knows to be something else. -/
structure SetServiceAgrees (current : ℕ) (info : DetectedInfo) (run : ℕ) (ctx : CallContext) (s : Store) : Prop where
  accepted : ¬ctx.Refused → ∀ key, ∀ x ∈ ctx.given key,
    x = claimed (info.get key) (if run = current then x else (s.runs current).detected key)
  refused : ctx.Refused → run = current → ∀ key ≠ InfoKey.product, ∀ x ∈ ctx.given key,
    (s.kb key.text).isSome → claimed (info.get key) x = claimed (info.get key) ((s.runs current).detected key)

/-- The condition on the calls of a run. -/
def CallRecord.Agrees (current : ℕ) (info : DetectedInfo) (c : CallRecord) : Prop :=
  match c.fn.op with
  | .pluginSetService run => (c.ctx.given .service).isSome → SetServiceAgrees current info run c.ctx c.store
  | _ => True

/-- The text of a string. -/
def Value.text? : Value → Option Bytes
  | .string s => some s
  | _ => none

/-- A value has no text just when it is no string. -/
theorem Value.text?_eq_none {v : Value} : v.text? = none ↔ ∀ s, v ≠ .string s := by
  cases v with
  | string s => exact iff_of_false (Option.some_ne_none s) fun h => h s rfl
  | _ =>
    apply iff_of_true rfl
    intro s h
    cases h

instance (v : Value) : Decidable (∀ s, v ≠ .string s) := decidable_of_iff (v.text? = none) Value.text?_eq_none

instance (argument : Option Value) : Decidable (BadText argument) :=
  inferInstanceAs (Decidable (∃ v ∈ argument, ∀ s, v ≠ .string s))

instance (ctx : CallContext) : Decidable ctx.Refused :=
  inferInstanceAs (Decidable (BadText _ ∨ BadText _))

instance (current : ℕ) (info : DetectedInfo) (run : ℕ) (ctx : CallContext) (s : Store) :
    Decidable (SetServiceAgrees current info run ctx s) :=
  decidable_of_iff (_ ∧ _) ⟨fun h => ⟨h.1, h.2⟩, fun h => ⟨h.accepted, h.refused⟩⟩

instance (current : ℕ) (info : DetectedInfo) : DecidablePred (CallRecord.Agrees current info) := by
  intro c
  unfold CallRecord.Agrees
  split <;> infer_instance

instance : DecidablePred CallRecord.SetsInfo := by
  intro c
  unfold CallRecord.SetsInfo
  split <;> infer_instance

/-- While a run is in progress, what the KB knows is what will be reported after it. -/
structure Store.InStep (current : ℕ) (info : DetectedInfo) (s : Store) : Prop where
  hasKb : (s.runs current).hasKb = true
  known : ∀ key v, s.kb (InfoKey.text key) = some v →
    v = .string (claimed (info.get key) ((s.runs current).detected key))

/-- A change that keeps the two in step. -/
def Machine.StaysInStep (current : ℕ) (info : DetectedInfo) (m m' : Machine) : Prop :=
  m.store.InStep current info → m'.store.InStep current info

section InStep

variable {current : ℕ} {info : DetectedInfo} {s : Store}

/-- A change of the state of a run that is none for what the KB knows. -/
theorem Store.InStep.withRun (h : s.InStep current info) (run : ℕ) (f : RunState → RunState)
    (hkb : ∀ state, (f state).hasKb = state.hasKb)
    (hf : run = current → ∀ key, (s.kb (InfoKey.text key)).isSome →
      claimed (info.get key) ((f (s.runs current)).detected key) =
        claimed (info.get key) ((s.runs current).detected key)) :
    (s.withRun run f).InStep current info := by
  by_cases hrun : run = current
  · subst hrun
    have hself : (s.withRun run f).runs run = f (s.runs run) := update_self ..
    constructor
    · rw [hself, hkb]
      exact h.hasKb
    · intro key v hv
      rw [hself, hf rfl key (Option.isSome_of_eq_some hv)]
      exact h.known key v hv
  · have hother : (s.withRun run f).runs current = s.runs current := update_of_ne (Ne.symm hrun) ..
    constructor
    · rw [hother]
      exact h.hasKb
    · rw [hother]
      exact h.known

/-- A write to the KB under another key. -/
theorem Store.InStep.kbSet (h : s.InStep current info) {key : Bytes} (hkey : ∀ k : InfoKey, k.text ≠ key) (v : Value) :
    Store.InStep current info { s with kb := s.kb.set key v } where
  hasKb := h.hasKb
  known k v' hv := by
    apply h.known k v'
    rw [← hv]
    exact (update_of_ne (hkey k) ..).symm

/-- A mild change keeps the KB in step with the info. -/
theorem Store.Mild.inStep {s' : Store} (hmild : s.Mild s') (h : s.InStep current info) : s'.InStep current info := by
  cases hmild with
  | object address o fresh => exact ⟨h.hasKb, h.known⟩
  | setMeta run f =>
    refine h.withRun run (fun state => { state with pluginMeta := f state.pluginMeta }) (fun _ => rfl) fun _ key _ => ?_
    cases key <;> rfl
  | event e => exact ⟨h.hasKb, h.known⟩

/-- Mild changes keep the two in step. -/
theorem gentle_inStep (current : ℕ) (info : DetectedInfo) :
    Gentle (Machine.StaysInStep current info) where
  refl _ h := h
  trans _ _ _ h h' hs := h' (h hs)
  mild _ _ hmild h := hmild.inStep h

/-- A scoped key is none of the three. -/
theorem scopedKey_ne {scope key : Value} {pos : Pos} {name : Bytes} (h : scopedKey scope key pos = .ok name)
    (k : InfoKey) : k.text ≠ name := by
  obtain ⟨scopeText, -, h⟩ := exists_of_bind_ok h
  obtain ⟨keyText, -, h⟩ := exists_of_bind_ok h
  split at h
  · cases h
  · cases h
    intro hk
    -- the dot behind the scope stands in none of them
    have hdot : (46 : Byte) ∉ k.text := by cases k <;> decide
    rw [hk] at hdot
    exact hdot (List.mem_append_left _ (List.mem_append_right _ (by decide)))

variable (run : ℕ) (ctx : CallContext)

/-- A field other than the service is given by the named argument of its key. -/
theorem given_eq_some_iff {key : InfoKey} (hkey : key ≠ .service) {x : Bytes} :
    ctx.given key = some x ↔ ctx.named key.text = some (.string x) := by
  have hgiven : ctx.given key = match ctx.named key.text with
      | some (.string s) => some s
      | _ => none := by
    cases key with
    | service => exact absurd rfl hkey
    | _ => rfl
  rw [hgiven]
  split
  · next s hs =>
    rw [hs]
    simp
  · next hnone => exact iff_of_false nofun (hnone x)

/-- A named argument that is not bad is the text that the call gives. -/
theorem named_eq_given {key : InfoKey} (hkey : key ≠ .service) (h : ¬BadText (ctx.named key.text)) :
    ctx.named key.text = (ctx.given key).map Value.string := by
  cases hx : ctx.given key with
  | some x => exact (given_eq_some_iff ctx hkey).mp hx
  | none =>
    cases hv : ctx.named key.text with
    | none => rfl
    | some v =>
      refine absurd ⟨v, hv, fun s hs => ?_⟩ h
      rw [(given_eq_some_iff ctx hkey).mpr (hs ▸ hv)] at hx
      cases hx

/-- It is read as this text, or else as the one that was set before. -/
theorem namedString_given {key : InfoKey} (hkey : key ≠ .service) (h : ¬BadText (ctx.named key.text))
    (old what : Bytes) : ctx.namedString key.text old what = .ok ((ctx.given key).getD old) := by
  rw [CallContext.namedString, named_eq_given ctx hkey h]
  cases ctx.given key <;> rfl

/-- The scope has the argument that was given, or else what it had. -/
theorem Env.setArgument_self (env : Env) (name : Bytes) (a : Option Value) :
    env.setArgument name a name = a.or (env name) := by
  cases a with
  | none => rfl
  | some v => exact update_self ..

/-- Any other name keeps its value. -/
theorem Env.setArgument_of_ne (env : Env) {name other : Bytes} (h : other ≠ name) (a : Option Value) :
    env.setArgument name a other = env other := by
  cases a with
  | none => rfl
  | some v => exact update_of_ne h ..

/-- An accepted claim in the KB. -/
theorem claimInKb_text {svc : Bytes} (h : ¬ctx.Refused) (hsvc : ctx.given .service = some svc) (kb : Env)
    (key : InfoKey) : claimInKb svc ctx.named kb key.text = ((ctx.given key).map Value.string).or (kb key.text) := by
  have hbanner : key.text ≠ str "banner" := by cases key <;> decide
  rw [claimInKb, Env.setArgument_of_ne _ hbanner]
  cases key with
  | service =>
    rw [Env.setArgument_of_ne _ (by decide), Env.setArgument_of_ne _ (by decide), hsvc]
    exact update_self ..
  | version =>
    rw [Env.setArgument_of_ne _ (by decide), ← @named_eq_given ctx .version (by decide) fun hbad => h (.inl hbad)]
    rw [InfoKey.text, Env.setArgument_self, Env.set, update_of_ne (by decide)]
  | product =>
    rw [← @named_eq_given ctx .product (by decide) fun hbad => h (.inr hbad)]
    rw [InfoKey.text, Env.setArgument_self, Env.setArgument_of_ne _ (by decide), Env.set, update_of_ne (by decide)]

/-- An accepted claim. -/
theorem Store.InStep.claim (h : s.InStep current info) {svc : Bytes} (hgood : ¬ctx.Refused)
    (hsvc : ctx.given .service = some svc)
    (hagrees : ∀ key, ∀ x ∈ ctx.given key,
      x = claimed (info.get key) (if run = current then x else (s.runs current).detected key)) {f : RunState → RunState}
    (hkb : ∀ state, (f state).hasKb = state.hasKb)
    (hf : ∀ key, (f (s.runs run)).detected key = (ctx.given key).getD ((s.runs run).detected key)) :
    ((s.withRun run f).claim run svc ctx.named).InStep current info := by
  have hcurrent : ∀ key, ((s.withRun run f).runs current).detected key =
      if run = current then (ctx.given key).getD ((s.runs current).detected key)
      else (s.runs current).detected key := by
    intro key
    by_cases hrun : run = current
    · subst hrun
      rw [if_pos rfl, ← hf key]
      exact congrArg (fun state => RunState.detected state key) (update_self ..)
    · rw [if_neg hrun]
      exact congrArg (fun state => RunState.detected state key) (update_of_ne (Ne.symm hrun) ..)
  have hhas : ((s.withRun run f).runs current).hasKb = true := by
    by_cases hrun : run = current
    · subst hrun
      exact (congrArg RunState.hasKb (update_self ..)).trans ((hkb _).trans h.hasKb)
    · exact (congrArg RunState.hasKb (update_of_ne (Ne.symm hrun) ..)).trans h.hasKb
  constructor
  · exact hhas
  · intro key v hv
    change v = .string (claimed (info.get key) (((s.withRun run f).runs current).detected key))
    rw [hcurrent]
    change (if ((s.withRun run f).runs run).hasKb then claimInKb svc ctx.named s.kb else s.kb) key.text = some v at hv
    by_cases hgiven : ∃ x, ctx.given key = some x ∧ ((s.withRun run f).runs run).hasKb = true
    · obtain ⟨x, hx, hwrites⟩ := hgiven
      rw [if_pos hwrites, claimInKb_text ctx hgood hsvc, hx] at hv
      cases hv
      have hclaim := hagrees key x hx
      rw [hx]
      exact congrArg Value.string hclaim
    · have hkept : s.kb key.text = some v := by
        split at hv
        · next hwrites =>
          rw [claimInKb_text ctx hgood hsvc] at hv
          cases hx : ctx.given key with
          | none => rwa [hx] at hv
          | some x => exact absurd ⟨x, hx, hwrites⟩ hgiven
        · exact hv
      rw [h.known key v hkept]
      split
      · next hrun =>
        subst hrun
        cases hx : ctx.given key with
        | none => rfl
        | some x => exact absurd ⟨x, hx, hhas⟩ hgiven
      · rfl

/-- Without a text for the service nothing is done. -/
theorem given_service_eq_none (h : ctx.given .service = none) (svc : Bytes) (rest : List Value) :
    ctx.positional ≠ .string svc :: rest := by
  intro hpositional
  rw [CallContext.given, hpositional] at h
  cases h

/-- A given service is the first positional argument. -/
theorem positional_of_given {svc : Bytes} (h : ctx.given .service = some svc) :
    ∃ rest, ctx.positional = .string svc :: rest := by
  rw [CallContext.given] at h
  split at h
  · next rest hpositional =>
    cases h
    exact ⟨_, hpositional⟩
  · cases h

/-- `plugin.set_service` under its condition. -/
theorem pluginSetService_inStep {m : Machine} (h : m.store.InStep current info)
    (hagrees : (ctx.given .service).isSome → SetServiceAgrees current info run ctx m.store) :
    (pluginSetService run ctx m).state.store.InStep current info := by
  cases hsvc : ctx.given .service with
  | none =>
    obtain ⟨e, hthrow⟩ := pluginSetService_nameless run ctx m (given_service_eq_none ctx hsvc)
    rw [hthrow]
    exact h
  | some svc =>
    have hcall := hagrees (Option.isSome_of_eq_some hsvc)
    obtain ⟨rest, hfirst⟩ := positional_of_given ctx hsvc
    by_cases hversion : BadText (ctx.named (str "version"))
    · obtain ⟨e, hthrow⟩ := pluginSetService_version run ctx m hfirst hversion
      rw [hthrow]
      refine h.withRun run (fun state => { state with setService := svc }) (fun _ => rfl) fun hrun key hknown => ?_
      cases key with
      | service => exact hcall.refused (.inl hversion) hrun .service (by decide) svc hsvc hknown
      | _ => rfl
    · have hread := @namedString_given ctx .version (by decide) hversion (m.store.runs run).setVersion (str "version")
      by_cases hproduct : BadText (ctx.named (str "product"))
      · obtain ⟨e, hthrow⟩ := pluginSetService_product run ctx m hfirst hread hproduct
        rw [hthrow]
        refine h.withRun run (fun state => { state with
          setService := svc
          setVersion := (ctx.given .version).getD (m.store.runs run).setVersion }) (fun _ => rfl)
          fun hrun key hknown => ?_
        cases key with
        | service => exact hcall.refused (.inr hproduct) hrun .service (by decide) svc hsvc hknown
        | product => rfl
        | version =>
          subst hrun
          change claimed (info.get .version) ((ctx.given .version).getD (m.store.runs run).setVersion) = _
          cases hgiven : ctx.given .version with
          | none => rfl
          | some x => exact hcall.refused (.inr hproduct) rfl .version (by decide) x hgiven hknown
      · have hgood : ¬ctx.Refused := not_or.mpr ⟨hversion, hproduct⟩
        have hread' := @namedString_given ctx .product (by decide) hproduct (m.store.runs run).setProduct
          (str "product")
        rw [pluginSetService_ok run ctx m hfirst hread hread']
        refine h.claim run ctx hgood hsvc (hcall.accepted hgood) (fun _ => rfl) fun key => ?_
        cases key with
        | service =>
          rw [hsvc]
          rfl
        | _ => rfl

end InStep

/-- Calls that agree keep the two in step. -/
theorem respected_inStep (w : World) (current : ℕ) (info : DetectedInfo) :
    Respected w (fun c => ¬c.SetsInfo ∧ c.Agrees current info)
      fun s s' => s.InStep current info → s'.InStep current info where
  refl _ h := h
  trans _ _ _ h h' hs := h' (h hs)
  quiet fn ctx m hquiet hgood := by
    have hgentle := gentle_inStep current info
    by_cases hop : fn.op.IsGentle
    · exact (gently_callNative hgentle w hop ctx none).state m
    · cases hfn : fn.op with
      | pluginSetService run =>
        intro h
        have hagrees := hgood.2
        rw [CallRecord.Agrees, hfn] at hagrees
        exact pluginSetService_inStep run ctx h hagrees
      | kbSet run =>
        have hspec : Gently (Machine.StaysInStep current info) (fun _ => False) (kbSet run ctx) := by
          refine gently_kbSet hgentle run ctx fun key v rest hpositional m h => h.kbSet (fun k hk => ?_) v
          apply hgood.1
          rw [CallRecord.SetsInfo, hfn, hpositional]
          exact ⟨k, hk.symm⟩
        exact hspec.state m
      | kbSetScoped run =>
        have hspec : Gently (Machine.StaysInStep current info) (fun _ => False) (kbSetScoped run ctx) :=
          gently_kbSetScoped hgentle run ctx fun _ _ v _ _ _ hname _ h => h.kbSet (scopedKey_ne hname) v
        exact hspec.state m
      | pluginFilter run =>
        have hspec : Gently (Machine.StaysInStep current info) (fun _ => False) (pluginFilter run ctx) := by
          refine gently_pluginFilter hgentle run ctx fun f m h => ?_
          refine h.withRun run (fun state => { state with pluginMeta := f state.pluginMeta }) (fun _ => rfl)
            fun _ key _ => ?_
          cases key <;> rfl
        exact hspec.state m
      | pluginRun run => rw [hfn] at hquiet; exact hquiet.elim
      | finding run => rw [hfn] at hquiet; exact hquiet.elim
      | _ => rw [hfn] at hop; exact absurd trivial hop
  finding fn ctx m run _ _ := by
    have hspec : Gently (Machine.StaysInStep current info) (fun _ => False) (findingFn w run ctx) := by
      refine gently_findingFn (gentle_inStep current info) w run ctx fun f m h => ?_
      refine h.withRun run (fun state => { state with findings := state.findings ++ [f] }) (fun _ => rfl)
        fun _ key _ => ?_
      cases key <;> rfl
    exact hspec.state m

/-- The two passes of `run_for_port`. -/
inductive Pass
  | discovery | checks

/-- One iteration of either loop. -/
def PortRun.visit (w : World) (host : Bytes) (port : ℤ) (st : PortRun) : Pass × LoadedPlugin → Option PortRun
  | (.discovery, p) => st.discover w host port p
  | (.checks, p) => st.check w host port p

/-- The iterations of both loops. -/
def iterations (plugins : List LoadedPlugin) : List (Pass × LoadedPlugin) :=
  plugins.map (Pass.discovery, ·) ++ plugins.map (Pass.checks, ·)

/-- What is reported after some runs. -/
def reported (initialService : Bytes) (calls : List RunCall) : DetectedInfo :=
  calls.foldl (fun info call => info.absorb call.outcome) { service := initialService }

section Specification

variable (w : World) (plugins : List LoadedPlugin) (host : Bytes) (port : ℤ) (initialService : Bytes) (st : PortRun)

/-- `run_for_port` comes to the state after some of its iterations. -/
def PortRun.Reached : Prop := ∃ made, made <+: iterations plugins ∧
  Run (PortRun.visit w host port) (PortRun.initial initialService) made st

/-- The native calls of all runs have a property, in which the number of their run and what was reported before
it may occur. -/
def PortRun.AllCalls (P : ℕ → DetectedInfo → CallRecord → Prop) : Prop :=
  ∀ before call after, st.calls = before ++ call :: after →
    ∀ c ∈ runCalls w call.plugin host port call.known true call.before,
      P call.before.nextRun (reported initialService before) c

/-- The target of the next run shows what is reported wherever the KB knows it. -/
def PortRun.TargetAgrees : Prop := ∀ p m,
  registerStdlib st.store.nextRun (initialMachine p host port st.info.service true st.store) = .ok () m →
    ∃ address, (m.store.runs st.store.nextRun).target = some address ∧ ∀ key, ∃ text,
      (m.store.objects address).fields (InfoKey.text key) = some (.string text) ∧
        ((st.store.kb key.text).isSome → text = st.info.get key)

end Specification

section Port

variable {w : World} {plugins : List LoadedPlugin} {host : Bytes} {port : ℤ} {initialService : Bytes}
  {st st' : PortRun} {p : LoadedPlugin}

/-- The schedule of a port is one pass over its iterations. -/
theorem runForPort_eq_foldlM : runForPort w plugins host port initialService =
    (iterations plugins).foldlM (PortRun.visit w host port) (PortRun.initial initialService) := by
  rw [iterations, List.foldlM_append, List.foldlM_map]
  simp only [List.foldlM_map]
  rfl

/-- An iteration runs its plugin, or does nothing. -/
theorem PortRun.visit_cases {visit : Pass × LoadedPlugin} (h : st.visit w host port visit = some st') :
    st' = st ∨ st.step w host port visit.2 = some st' := by
  obtain ⟨pass, p⟩ := visit
  cases pass with
  | discovery =>
    rw [PortRun.visit, PortRun.discover] at h
    split at h
    · exact .inr h
    · exact .inl (Option.some.inj h).symm
  | checks =>
    rw [PortRun.visit, PortRun.check] at h
    split at h
    · exact .inl (Option.some.inj h).symm
    · split at h
      · exact .inr h
      · exact .inl (Option.some.inj h).symm

/-- The next run starts in step. -/
theorem Ran.inStep {known : Bytes} {s s' : Store} {r : RunOutcome} {m : Machine} {info : DetectedInfo}
    (h : Ran w p host port known true s r s' m)
    (hkb : ∀ key v, s.kb (InfoKey.text key) = some v → v = .string (info.get key)) :
    m.store.InStep s.nextRun info where
  hasKb := by
    rw [h.fresh]
    rfl
  known key v hv := by
    rw [h.silent.kb] at hv
    rw [hkb key v hv, h.fresh]
    cases key <;> rfl

/-- A run whose calls agree leaves the two in agreement. -/
theorem PortRun.Agrees.step (h : st.Agrees) (hstep : st.step w host port p = some st')
    (hgood : ∀ c ∈ runCalls w p host port st.info.service true st.store,
      ¬c.SetsInfo ∧ c.Agrees st.store.nextRun st.info) : st'.Agrees := by
  obtain ⟨call, hcall, rfl⟩ := Option.map_eq_some_iff.mp hstep
  obtain ⟨⟨r, s'⟩, hrun, rfl⟩ := Option.map_eq_some_iff.mp hcall
  obtain ⟨m, hran⟩ := exists_ran hrun
  have hend := hran.under (respected_inStep w _ _) hgood (hran.inStep h)
  obtain ⟨late, -, rfl, rfl⟩ := hran.outcome
  have hlate := hend.withRun st.store.nextRun (fun state => { state with findings := state.findings ++ late })
    (fun _ => rfl) fun _ key _ => by cases key <;> rfl
  intro key v hv
  rw [hlate.known key v hv, ← DetectedInfo.absorb_get]

/-- The fields of the target that is registered. -/
def targetFields (state : RunState) (kb : Env) : Env := fieldTable
  [(str "host", .string state.targetHost), (str "port", .number state.targetPort),
   (str "service", .string state.knownService),
   (str "product", (if state.hasKb then kb (str "product") else none).getD (.string [])),
   (str "version", (if state.hasKb then kb (str "version") else none).getD (.string []))]

/-- The target object has the fields of the target and of the KB. -/
theorem registerStdlib_target {run : ℕ} {m m' : Machine} (h : registerStdlib run m = .ok () m') :
    ∃ address, (m'.store.runs run).target = some address ∧
      (m'.store.objects address).fields = targetFields (m.store.runs run) m.store.kb := by
  have hrun : ∃ u plugin kb cve, registerStdlib run m = .ok () u ∧
      u.store.runs = update m.store.runs run { m.store.runs run with target := some (m.store.next + 7) } ∧
      u.store.objects = update (update (update (update m.store.objects (m.store.next + 6) plugin) (m.store.next + 7)
        { typeName := str "Target", fields := targetFields (m.store.runs run) m.store.kb })
        (m.store.next + 15) kb) (m.store.next + 18) cve := ⟨_, _, _, _, rfl, rfl, rfl⟩
  obtain ⟨u, plugin, kb, cve, hu, hruns, hobjects⟩ := hrun
  rw [h] at hu
  cases hu
  refine ⟨m.store.next + 7, ?_, ?_⟩
  · rw [hruns, update_self]
  · rw [hobjects, update_of_ne (by omega), update_of_ne (by omega), update_self]

/-- What the next target shows is what is reported, wherever the KB knows it. -/
theorem PortRun.Agrees.target (h : st.Agrees) : st.TargetAgrees host port := by
  intro p m hm
  obtain ⟨address, htarget, hfields⟩ := registerStdlib_target hm
  refine ⟨address, htarget, fun key => ?_⟩
  have hstate : (initialMachine p host port st.info.service true st.store).store.runs st.store.nextRun =
      freshRun host port st.info.service true := update_self ..
  rw [hfields, hstate]
  have hread : ∀ key : InfoKey, ∃ text, (st.store.kb key.text).getD (.string []) = .string text ∧
      ((st.store.kb key.text).isSome → text = st.info.get key) := by
    intro key
    cases hv : st.store.kb key.text with
    | none => exact ⟨[], rfl, nofun⟩
    | some v => exact ⟨st.info.get key, h key v hv, fun _ => rfl⟩
  cases key with
  | service => exact ⟨st.info.service, rfl, fun _ => rfl⟩
  | product =>
    obtain ⟨text, htext, hknown⟩ := hread .product
    exact ⟨text, congrArg some htext, hknown⟩
  | version =>
    obtain ⟨text, htext, hknown⟩ := hread .version
    exact ⟨text, congrArg some htext, hknown⟩

/-- What the KB knows at the start is the service that was given. -/
theorem PortRun.initial_agrees : (PortRun.initial initialService).Agrees := by
  intro key v hv
  rw [PortRun.initial] at hv
  by_cases hempty : initialService = []
  · subst hempty
    cases hv
  · have hkb : (if initialService.isEmpty then Env.empty
        else Env.empty.set (str "service") (.string initialService)) key.text = some v := hv
    rw [List.isEmpty_eq_false_iff.mpr hempty, if_neg Bool.false_ne_true, Env.set] at hkb
    by_cases hkey : key.text = str "service"
    · rw [hkey, update_self] at hkb
      rw [InfoKey.text_injective (show key.text = InfoKey.service.text from hkey)]
      exact (Option.some.inj hkb).symm
    · rw [update_of_ne hkey] at hkb
      cases hkb

/-- In every run of `run_for_port` in which no call of `kb.set` writes the three keys and the calls of
`plugin.set_service` agree, what the KB knows is what is reported. -/
theorem reached_agrees (h : st.Reached w plugins host port initialService)
    (hkeys : st.AllCalls w host port initialService fun _ _ c => ¬c.SetsInfo)
    (hclaims : st.AllCalls w host port initialService fun run info c => c.Agrees run info) :
    st.Agrees ∧ st.TargetAgrees host port := by
  obtain ⟨made, -, hrun⟩ := h
  have hinv : st.info = reported initialService st.calls ∧ st.Agrees := by
    induction hrun with
    | nil => exact ⟨rfl, PortRun.initial_agrees⟩
    | @next made st st' visit _ taken ih =>
      rcases PortRun.visit_cases taken with rfl | hstep
      · exact ih hkeys hclaims
      · have hcalls : ∃ call : RunCall, st'.calls = st.calls ++ [call] ∧ call.plugin = visit.2 ∧
            call.known = st.info.service ∧ call.before = st.store ∧ st'.info = st.info.absorb call.outcome := by
          obtain ⟨call, hcall, rfl⟩ := Option.map_eq_some_iff.mp hstep
          obtain ⟨r, -, rfl⟩ := Option.map_eq_some_iff.mp hcall
          exact ⟨_, rfl, rfl, rfl, rfl, rfl⟩
        obtain ⟨call, hcalls, hplugin, hknown, hbefore, hinfo⟩ := hcalls
        have hearlier : ∀ P, st'.AllCalls w host port initialService P → st.AllCalls w host port initialService P := by
          intro P hall before c after hsplit
          apply hall before c (after ++ [call])
          rw [hcalls, hsplit]
          simp
        obtain ⟨hreported, hagrees⟩ := ih (hearlier _ hkeys) (hearlier _ hclaims)
        constructor
        · rw [hinfo, hcalls, reported, List.foldl_append, ← reported, ← hreported]
          rfl
        · apply hagrees.step hstep
          intro c hc
          rw [hreported, ← hbefore]
          rw [← hknown, ← hbefore, ← hplugin] at hc
          exact ⟨hkeys st.calls call [] hcalls c hc, hclaims st.calls call [] hcalls c hc⟩
  exact ⟨hinv.2, hinv.2.target⟩

/-- The calls by their positions. -/
theorem PortRun.allCalls_iff {P : ℕ → DetectedInfo → CallRecord → Prop} :
    st.AllCalls w host port initialService P ↔ ∀ i (h : i < st.calls.length),
      ∀ c ∈ runCalls w st.calls[i].plugin host port st.calls[i].known true st.calls[i].before,
        P st.calls[i].before.nextRun (reported initialService (st.calls.take i)) c :=
  forall_splits_iff (P := fun before (call : RunCall) =>
    ∀ c ∈ runCalls w call.plugin host port call.known true call.before,
      P call.before.nextRun (reported initialService before) c)

instance (P : ℕ → DetectedInfo → CallRecord → Prop) [∀ run info, DecidablePred (P run info)] :
    Decidable (st.AllCalls w host port initialService P) :=
  decidable_of_iff _ PortRun.allCalls_iff.symm

/-- What the schedule ends in is reached. -/
theorem reached_of_runForPort (h : runForPort w plugins host port initialService = some st) :
    st.Reached w plugins host port initialService := by
  rw [runForPort_eq_foldlM] at h
  exact ⟨_, List.prefix_rfl, Run.iff_foldlM.mpr h⟩

end Port

/-- A plugin that detects a service. -/
def detectSsh : List (Bytes × Bytes) :=
  [(str "ssh.ztl", str "plugin.filter(any: true); plugin.run \x7b plugin.set_service(\"ssh\", version: \"9.6\"); \x7d")]

/-- A plugin that detects SSH and its version leaves info, KB and target in agreement. -/
theorem reached_agrees_ssh : ∃ plugins st,
    loadPluginsDir ⟨silentNetwork, []⟩ (str "plugins") detectSsh = some plugins ∧
    runForPort ⟨silentNetwork, []⟩ plugins (str "10.0.0.1") 22 [] = some st ∧
    st.store.kb (str "version") = some (.string (str "9.6")) ∧
    st.Agrees ∧ st.TargetAgrees (str "10.0.0.1") 22 := by
  have hruns : ((loadPluginsDir ⟨silentNetwork, []⟩ (str "plugins") detectSsh).bind fun plugins =>
      runForPort ⟨silentNetwork, []⟩ plugins (str "10.0.0.1") 22 []).any (fun st =>
        decide (st.store.kb (str "version") = some (.string (str "9.6")) ∧
          (st.AllCalls ⟨silentNetwork, []⟩ (str "10.0.0.1") 22 [] fun _ _ c => ¬c.SetsInfo) ∧
          st.AllCalls ⟨silentNetwork, []⟩ (str "10.0.0.1") 22 [] fun run info c => c.Agrees run info)) = true := by
    decide +kernel
  obtain ⟨st, hst, hchecks⟩ := (Option.any_eq_true _ _).mp hruns
  obtain ⟨plugins, hload, hrun⟩ := Option.bind_eq_some_iff.mp hst
  obtain ⟨hversion, hkeys, hclaims⟩ := of_decide_eq_true hchecks
  exact ⟨plugins, st, hload, hrun, hversion, reached_agrees (reached_of_runForPort hrun) hkeys hclaims⟩

/-- A plugin whose second claim fails. -/
def claimTwice : List (Bytes × Bytes) :=
  [(str "claims.ztl", str "plugin.filter(any: true); plugin.run \x7b
    plugin.set_service(\"ssh\"); plugin.set_service(\"http\", version: 2); \x7d")]

/-- After a failing claim the KB has the old service, and the new one is reported. -/
theorem failing_claim_reported : ¬∀ (w : World) (plugins : List LoadedPlugin) (host : Bytes) (port : ℤ)
    (initialService : Bytes) (st : PortRun), st.Reached w plugins host port initialService →
      (st.AllCalls w host port initialService fun _ _ c => ¬c.SetsInfo) → st.Agrees := by
  intro h
  have hruns : ((loadPluginsDir ⟨silentNetwork, []⟩ (str "plugins") claimTwice).bind fun plugins =>
      runForPort ⟨silentNetwork, []⟩ plugins (str "10.0.0.1") 22 []).any (fun st =>
        decide (st.store.kb (str "service") = some (.string (str "ssh")) ∧ st.info.service = str "http" ∧
          st.AllCalls ⟨silentNetwork, []⟩ (str "10.0.0.1") 22 [] fun _ _ c => ¬c.SetsInfo)) = true := by
    decide +kernel
  obtain ⟨st, hst, hchecks⟩ := (Option.any_eq_true _ _).mp hruns
  obtain ⟨plugins, -, hrun⟩ := Option.bind_eq_some_iff.mp hst
  obtain ⟨hknown, hreported, hkeys⟩ := of_decide_eq_true hchecks
  have hsame := h _ plugins _ _ _ st (reached_of_runForPort hrun) hkeys .service _ hknown
  rw [DetectedInfo.get, hreported] at hsame
  exact absurd hsame (by decide)

end ZeroTrust.Ztl
