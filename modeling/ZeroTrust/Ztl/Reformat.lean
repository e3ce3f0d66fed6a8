import ZeroTrust.Lib.Components
import ZeroTrust.Ztl.Layout
import ZeroTrust.Ztl.LexerRender
import ZeroTrust.Ztl.Positions

/-!
# Reformatting a plugin

A plugin file can be indented, commented and escaped in another way without another effect: it loads
with the same metadata, and whatever the schedulers report of it is the same but for the lines and
columns in the debug findings of its run-time errors. The tokens of the text decide what is loaded,
and a run is the same for programs that differ in positions.
-/

namespace ZeroTrust.Ztl

open Function (update)

section Run

open Effect (alike_pure alike_modify)

variable {w : World} (run : ℕ)

/-- Defining a global is alike when its value is. -/
theorem defineGlobal_alike (name : Bytes) {make make' : Eval Value} (h : Eval.Alike Eq make make') :
    Eval.Alike Eq (defineGlobal name make) (defineGlobal name make') := by
  refine h.bind fun v v' hv => ?_
  subst hv
  exact alike_modify fun _ _ hm => ⟨congrArg (Env.set · name v) hm.globals, hm.locals, hm.store⟩

/-- Building the target object is alike. -/
theorem makeTargetObj_alike : Eval.Alike Eq (makeTargetObj run) (makeTargetObj run) := by
  refine (readStore_alike fun _ _ hs => hs.runs run).bind fun state state' hstate =>
    (readKb_alike run _).bind fun product product' hproduct =>
      (readKb_alike run _).bind fun version version' hversion => ?_
  subst hproduct hversion
  have hhost : state.targetHost = state'.targetHost := hstate.get fun _ => rfl
  have hport : state.targetPort = state'.targetPort := hstate.get fun _ => rfl
  have hknown : state.knownService = state'.knownService := hstate.get fun _ => rfl
  rw [hhost, hport, hknown]
  refine (newObject_alike _ _ _).bind fun target target' htarget => ?_
  subst htarget
  exact (changeRest_alike run (by intro _; rfl) (by intro _; rfl)).bind fun _ _ _ => alike_pure rfl

/-- Registering the library is alike. -/
theorem registerStdlib_alike : Eval.Alike Eq (registerStdlib run) (registerStdlib run) := by
  have hnext {name : Bytes} {make : Eval Value} {rest : Eval Unit} (hmake : Eval.Alike Eq make make)
      (hrest : Eval.Alike Eq rest rest) :
      Eval.Alike Eq (defineGlobal name make >>= fun _ => rest) (defineGlobal name make >>= fun _ => rest) :=
    (defineGlobal_alike name hmake).bind fun _ _ _ => hrest
  refine hnext (newObject_alike _ _ _) (hnext (makeTargetObj_alike run) ?_)
  refine hnext (newFunction_alike _) (hnext (newObject_alike _ _ _) (hnext (newObject_alike _ _ _) ?_))
  exact hnext (newFunction_alike _) (hnext (newFunction_alike _) (hnext (newFunction_alike _)
    (defineGlobal_alike _ (newFunction_alike _))))

/-- Plugins that erase to the same run alike. -/
theorem interpretPlugin_alike (hw : w.Blind) {p p' : LoadedPlugin} (h : p.erase = p'.erase) :
    Eval.Alike Eq (interpretPlugin w p run) (interpretPlugin w p' run) :=
  (registerStdlib_alike run).bind fun _ _ _ =>
    execStmts_alike hw (congrArg (fun p : LoadedPlugin => p.program.statements) h)

/-- The debug finding differs in the place of its error only. -/
theorem buryError_alike {p p' : LoadedPlugin} (h : p.erase = p'.erase) (port : ℤ) {e e' : Exn} (he : e.Alike e') :
    Eval.Alike Eq (buryError p run port e) (buryError p' run port e') := by
  cases he with
  | returned v => exact alike_pure rfl
  | @runtimeError e e' he =>
    refine changeRun_alike run fun state state' hstate => ⟨hstate.rest, List.rel_append hstate.findings ?_⟩
    have hpath : p.sourcePath = p'.sourcePath := (congrArg LoadedPlugin.sourcePath h :)
    have hmeta : state.pluginMeta = state'.pluginMeta := hstate.get fun _ => rfl
    have hfinding : errorFinding p' state' port e'.what = errorFinding p state port e'.what := by
      simp only [errorFinding, hpath, hmeta]
    rw [hfinding]
    exact .cons (.error p state port he) .nil

/-- Outcomes that differ at most in the places of errors. -/
structure RunOutcome.Alike (r r' : RunOutcome) : Prop where
  pluginMeta : r.pluginMeta = r'.pluginMeta
  findings : List.Forall₂ FindingOut.Alike r.findings r'.findings
  detectedService : r.detectedService = r'.detectedService
  detectedProduct : r.detectedProduct = r'.detectedProduct
  detectedVersion : r.detectedVersion = r'.detectedVersion
  detectedPort : r.detectedPort = r'.detectedPort

/-- Alike states have alike outcomes. -/
theorem RunState.Alike.outcome {state state' : RunState} (h : state.Alike state') :
    state.outcome.Alike state'.outcome where
  pluginMeta := h.get (f := RunState.pluginMeta) fun _ => rfl
  findings := h.findings
  detectedService := h.get (f := RunState.setService) fun _ => rfl
  detectedProduct := h.get (f := RunState.setProduct) fun _ => rfl
  detectedVersion := h.get (f := RunState.setVersion) fun _ => rfl
  detectedPort := h.get (f := fun state => if state.setService.isEmpty then 0 else state.targetPort) fun _ => rfl

/-- The mark of a new run. -/
theorem Store.Alike.begin {s s' : Store} (h : s.Alike s') (state : RunState) {e e' : NetEvent}
    (he : e.erase = e'.erase) : (s.begin state e).Alike (s'.begin state e') where
  kb := h.kb
  objects := h.objects
  next := h.next
  runs other := by
    by_cases hother : other = s.nextRun
    · subst hother
      simp only [Store.begin, ← h.nextRun, Function.update_self]
      exact .refl state
    · have hother' : other ≠ s'.nextRun := by rwa [← h.nextRun]
      simp only [Store.begin, Function.update_of_ne hother, Function.update_of_ne hother']
      exact h.runs other
  nextRun := congrArg (· + 1) h.nextRun
  history := by
    show e.erase :: _ = e'.erase :: _
    rw [he, h.history]

/-- The start of a run is the same event up to positions. -/
theorem startEvent_erase {p p' : LoadedPlugin} (h : p.erase = p'.erase) (host : Bytes) (port : ℤ) :
    (NetEvent.start p host port).erase = (NetEvent.start p' host port).erase :=
  congrArg (NetEvent.start · host port) h

/-- A run of a plugin, and of the plugin in another layout behind like runs. -/
theorem runPlugin_layout (hw : w.Blind) {p p' : LoadedPlugin} (h : p.erase = p'.erase) (host : Bytes) (port : ℤ)
    (known : Bytes) (hasKb : Bool) {s s' : Store} (hs : s.Alike s') :
    Option.Rel (fun r r' => r.1.Alike r'.1 ∧ r.2.Alike r'.2) (runPlugin w p host port known hasKb s)
      (runPlugin w p' host port known hasKb s') := by
  have heval : Eval.Alike Eq (runPluginEval w p s.nextRun port) (runPluginEval w p' s.nextRun port) :=
    (interpretPlugin_alike s.nextRun hw h).tryCatch fun e e' he => buryError_alike s.nextRun h port he
  have hrun := heval (initialMachine p host port known hasKb s) (initialMachine p' host port known hasKb s')
    (hs.begin _ (startEvent_erase h host port)).machine
  unfold runPlugin
  rw [← hs.nextRun]
  generalize runPluginEval w p s.nextRun port (initialMachine p host port known hasKb s) = o at hrun ⊢
  generalize runPluginEval w p' s.nextRun port (initialMachine p' host port known hasKb s') = o' at hrun ⊢
  cases hrun with
  | ok hv hm => exact .some ⟨(hm.store.runs s.nextRun).outcome, hm.store⟩
  | throw he hm => exact .none
  | fault hm => exact .none

end Run

section Load

variable {w : World}

/-- Texts with the same tokens in other places. -/
inductive Reformatted : Bytes → Bytes → Prop
  | same (text : Bytes) : Reformatted text text
  | tokens {text text' : Bytes} {ts ts' : List Token} (h : tokenize text = .ok ts) (h' : tokenize text' = .ok ts')
      (hlexemes : ts.map Token.lexeme = ts'.map Token.lexeme) : Reformatted text text'

/-- Two renderings of a token list, with their own gaps and escapes. -/
theorem Rendering.reformatted {xs : List Lexeme} {text text' : Bytes} (h : Rendering xs text)
    (h' : Rendering xs text') : Reformatted text text' := by
  obtain ⟨gap, forms, hgap, hforms, rfl⟩ := h
  obtain ⟨gap', forms', hgap', hforms', rfl⟩ := h'
  obtain ⟨ts, hrun, hts⟩ := tokenizeLoop_run hforms hgap { line := 1, col := 1 } []
  obtain ⟨ts', hrun', hts'⟩ := tokenizeLoop_run hforms' hgap' { line := 1, col := 1 } []
  exact .tokens hrun hrun' (hts.trans hts'.symm)

/-- Erasing positions keeps the lexemes and nothing else. -/
theorem map_erase_tokens (ts : List Token) :
    ts.map Token.erase = (ts.map Token.lexeme).map fun x => ⟨x.1, x.2, {}⟩ := by
  rw [List.map_map]
  rfl

/-- Parses with the same result up to positions. -/
inductive ParsedAlike : Except ParseFailure Program → Except ParseFailure Program → Prop
  | ok {p p' : Program} (h : p.erase = p'.erase) : ParsedAlike (.ok p) (.ok p')
  | error {e e' : ParseFailure} (h : e.erase = e'.erase) : ParsedAlike (.error e) (.error e')

/-- Programs of the same lexemes are parsed alike. -/
theorem parseProgram_reformatted {cur cur' : Token} {rest rest' : List Token}
    (h : (cur :: rest).map Token.lexeme = (cur' :: rest').map Token.lexeme) :
    ParsedAlike (parseProgram cur rest) (parseProgram cur' rest') := by
  have herase : (cur :: rest).map Token.erase = (cur' :: rest').map Token.erase := by
    rw [map_erase_tokens, map_erase_tokens, h]
  rw [List.map_cons, List.map_cons, List.cons.injEq] at herase
  have hparse := parseProgram_erase cur rest
  rw [herase.1, herase.2, parseProgram_erase cur' rest'] at hparse
  generalize parseProgram cur rest = r at hparse ⊢
  generalize parseProgram cur' rest' = r' at hparse ⊢
  cases r with
  | ok p =>
    cases r' with
    | ok p' => exact .ok (Except.ok.inj hparse).symm
    | error e' => cases hparse
  | error e =>
    cases r' with
    | ok p' => cases hparse
    | error e' => exact .error (Except.error.inj hparse).symm

/-- The preview of a program does not depend on its layout. -/
theorem preload_reformatted (hw : w.Blind) {program program' : Program} (h : program.erase = program'.erase)
    (path : Bytes) : preload w program path = preload w program' path := by
  have herase : LoadedPlugin.erase { program := program, sourcePath := path } =
      LoadedPlugin.erase { program := program', sourcePath := path } := by
    simp only [LoadedPlugin.erase, h]
  have hstore := (Store.Alike.refl {}).begin { targetHost := str "0.0.0.0", metaOnly := true }
    (startEvent_erase herase (str "0.0.0.0") 0)
  have hrun := interpretPlugin_alike 0 hw herase _ _ hstore.machine
  unfold preload
  dsimp only
  generalize interpretPlugin w { program := program, sourcePath := path } 0 _ = o at hrun ⊢
  generalize interpretPlugin w { program := program', sourcePath := path } 0 _ = o' at hrun ⊢
  cases hrun with
  | ok hv hm => exact congrArg some ((hm.store.runs 0).get fun _ => rfl)
  | throw he hm => rfl
  | fault hm => rfl

/-- A file loads in one layout as in another. -/
inductive LoadAlike : Except LoadError LoadedPlugin → Except LoadError LoadedPlugin → Prop
  | ok {p p' : LoadedPlugin} (h : p.erase = p'.erase) : LoadAlike (.ok p) (.ok p')
  | lex (e : LexError) : LoadAlike (.error (.lex e)) (.error (.lex e))
  | parse {e e' : ParseFailure} (h : e.erase = e'.erase) : LoadAlike (.error (.parse e)) (.error (.parse e'))
  | fault : LoadAlike (.error .fault) (.error .fault)

/-- A load is alike to itself. -/
theorem LoadAlike.refl (r : Except LoadError LoadedPlugin) : LoadAlike r r := by
  match r with
  | .ok p => exact .ok rfl
  | .error (.lex e) => exact .lex e
  | .error (.parse e) => exact .parse rfl
  | .error .fault => exact .fault

/-- A reformatted plugin loads alike. -/
theorem loadPlugin_reformatted (hw : w.Blind) (path : Bytes) {text text' : Bytes} (h : Reformatted text text') :
    LoadAlike (loadPlugin w path text) (loadPlugin w path text') := by
  cases h with
  | same => exact .refl _
  | tokens h h' hlexemes =>
    rename_i ts ts'
    unfold loadPlugin
    rw [h, h']
    cases ts with
    | nil =>
      cases ts' with
      | nil => exact .parse rfl
      | cons cur' rest' => cases hlexemes
    | cons cur rest =>
      cases ts' with
      | nil => cases hlexemes
      | cons cur' rest' =>
        have hparse := parseProgram_reformatted hlexemes
        dsimp only
        generalize parseProgram cur rest = r at hparse ⊢
        generalize parseProgram cur' rest' = r' at hparse ⊢
        cases hparse with
        | error he => exact .parse he
        | @ok program program' herase =>
          dsimp only
          rw [preload_reformatted hw herase path]
          cases preload w program' path with
          | none => exact .fault
          | some previewMeta => exact .ok (by simp only [LoadedPlugin.erase, herase])

/-- The entries of a directory, some of them reformatted. -/
def EntriesReformatted (entries entries' : List (Bytes × Bytes)) : Prop :=
  List.Forall₂ (fun e e' => e.1 = e'.1 ∧ Reformatted e.2 e'.2) entries entries'

/-- The same plugins are loaded in the same order. -/
theorem loadPluginsDir_reformatted (hw : w.Blind) (dir : Bytes) {entries entries' : List (Bytes × Bytes)}
    (h : EntriesReformatted entries entries') :
    Option.Rel (List.Forall₂ fun p p' => p.erase = p'.erase) (loadPluginsDir w dir entries)
      (loadPluginsDir w dir entries') := by
  induction h with
  | nil => exact .some .nil
  | @cons entry entry' entries entries' hentry _ ih =>
    obtain ⟨name, text⟩ := entry
    obtain ⟨name', text'⟩ := entry'
    obtain ⟨rfl, htext⟩ := hentry
    rw [loadPluginsDir, loadPluginsDir]
    split
    · exact ih
    · have hload := loadPlugin_reformatted hw (dir ++ str "/" ++ name) htext
      generalize loadPlugin w (dir ++ str "/" ++ name) text = r at hload ⊢
      generalize loadPlugin w (dir ++ str "/" ++ name) text' = r' at hload ⊢
      cases hload with
      | lex e => exact ih
      | parse h => exact ih
      | fault => exact .none
      | ok hp =>
        generalize loadPluginsDir w dir entries = ps at ih ⊢
        generalize loadPluginsDir w dir entries' = ps' at ih ⊢
        cases ih with
        | none => exact .none
        | some hps => exact .some (.cons hp hps)

end Load

section Schedulers

/-- Calls of plugins that differ in positions: they were given the same and have returned the same. -/
structure RunCall.Alike (c c' : RunCall) : Prop where
  plugin : c.plugin.erase = c'.plugin.erase
  known : c.known = c'.known
  before : c.before.Alike c'.before
  outcome : c.outcome.Alike c'.outcome
  after : c.after.Alike c'.after

/-- The variables of `run_for_port` after runs that differ in positions, with the calls it made. -/
structure PortRun.Alike (st st' : PortRun) : Prop where
  info : st.info = st'.info
  findings : List.Forall₂ FindingOut.Alike st.findings st'.findings
  store : st.store.Alike st'.store
  calls : List.Forall₂ RunCall.Alike st.calls st'.calls

/-- The variables of `run_all` after runs that differ in positions, with the calls it made on each port. -/
structure AllRun.Alike (st st' : AllRun) : Prop where
  serviceOf : st.serviceOf = st'.serviceOf
  findings : List.Forall₂ FindingOut.Alike st.findings st'.findings
  stores : ∀ port, (st.stores port).Alike (st'.stores port)
  calls : List.Forall₂ (fun c c' => c.1 = c'.1 ∧ c.2.Alike c'.2) st.calls st'.calls

variable {p p' : LoadedPlugin}

/-- A call in another layout. -/
theorem callRun_layout {w : World} (hw : w.Blind) (h : p.erase = p'.erase) (host : Bytes) (port : ℤ) (known : Bytes)
    {s s' : Store} (hs : s.Alike s') :
    Option.Rel RunCall.Alike (callRun w host port p known s) (callRun w host port p' known s') := by
  have hrun := runPlugin_layout hw h host port known true hs
  unfold callRun
  generalize runPlugin w p host port known true s = r at hrun ⊢
  generalize runPlugin w p' host port known true s' = r' at hrun ⊢
  cases hrun with
  | none => exact .none
  | some hr => exact .some ⟨h, rfl, hs, hr.1, hr.2⟩

/-- Plugins that erase to the same agree on `filter(any:)`. -/
theorem filterAny_layout (h : p.erase = p'.erase) : p.previewMeta.filterAny = p'.previewMeta.filterAny :=
  (congrArg (fun p : LoadedPlugin => p.previewMeta.filterAny) h :)

/-- Plugins that erase to the same admit the same services. -/
theorem admits_layout (h : p.erase = p'.erase) (svc : Bytes) : p.admits svc = p'.admits svc :=
  (congrArg (fun p : LoadedPlugin => p.admits svc) h :)

/-- Alike outcomes are absorbed alike. -/
theorem absorb_layout {r r' : RunOutcome} (h : r.Alike r') (info : DetectedInfo) : info.absorb r = info.absorb r' := by
  simp only [DetectedInfo.absorb, h.detectedService, h.detectedProduct, h.detectedVersion]

section Port

variable {w : World} (hw : w.Blind) (host : Bytes) (port : ℤ) {st st' : PortRun} (hst : st.Alike st')

include hw hst

/-- One plugin's run keeps the state of the port alike. -/
theorem PortRun.step_layout (h : p.erase = p'.erase) :
    Option.Rel PortRun.Alike (st.step w host port p) (st'.step w host port p') := by
  have hcall := callRun_layout hw h host port st.info.service hst.store
  unfold PortRun.step
  rw [← hst.info]
  generalize callRun w host port p st.info.service st.store = c at hcall ⊢
  generalize callRun w host port p' st.info.service st'.store = c' at hcall ⊢
  cases hcall with
  | none => exact .none
  | some hc =>
    exact .some ⟨absorb_layout hc.outcome _, List.rel_append hst.findings hc.outcome.findings, hc.after,
      List.rel_append hst.calls (.cons hc .nil)⟩

/-- A discovery step keeps the state of the port alike. -/
theorem PortRun.discover_layout (h : p.erase = p'.erase) :
    Option.Rel PortRun.Alike (st.discover w host port p) (st'.discover w host port p') := by
  unfold PortRun.discover
  rw [filterAny_layout h]
  split
  · exact PortRun.step_layout hw host port hst h
  · exact .some hst

/-- A check step keeps the state of the port alike. -/
theorem PortRun.check_layout (h : p.erase = p'.erase) :
    Option.Rel PortRun.Alike (st.check w host port p) (st'.check w host port p') := by
  unfold PortRun.check
  rw [filterAny_layout h, admits_layout h, hst.info]
  split
  · exact .some hst
  · split
    · exact PortRun.step_layout hw host port hst h
    · exact .some hst

end Port

/-- Plugins that differ in positions, in one order. -/
def PluginsAlike (ps ps' : List LoadedPlugin) : Prop := List.Forall₂ (fun p p' => p.erase = p'.erase) ps ps'

/-- The whole schedule of a port runs alike. -/
theorem runForPort_layout {w : World} (hw : w.Blind) {ps ps' : List LoadedPlugin} (h : PluginsAlike ps ps')
    (host : Bytes) (port : ℤ) (initialService : Bytes) :
    Option.Rel PortRun.Alike (runForPort w ps host port initialService)
      (runForPort w ps' host port initialService) := by
  have hfirst := rel_foldlM
    (fun _ _ p p' hst (hp : p.erase = p'.erase) => PortRun.discover_layout hw host port hst hp) h
    (s := PortRun.initial initialService) (t := PortRun.initial initialService) ⟨rfl, .nil, .refl _, .nil⟩
  refine rel_bind hfirst fun st st' _ _ hst => ?_
  exact rel_foldlM (fun _ _ p p' hst (hp : p.erase = p'.erase) => PortRun.check_layout hw host port hst hp) h hst

section All

variable {w : ℤ → World} (hw : ∀ port, (w port).Blind) (host : Bytes)

/-- Recording alike calls keeps the states of all ports alike. -/
theorem AllRun.Alike.record {st st' : AllRun} (hst : st.Alike st') (port : ℤ) {c c' : RunCall}
    (hc : c.Alike c') : (st.record port c).Alike (st'.record port c') := by
  refine ⟨hst.serviceOf, List.rel_append hst.findings hc.outcome.findings, fun other => ?_,
    List.rel_append hst.calls (.cons ⟨rfl, hc⟩ .nil)⟩
  by_cases hother : other = port
  · subst hother
    simp only [AllRun.record, Function.update_self]
    exact hc.after
  · simp only [AllRun.record, Function.update_of_ne hother]
    exact hst.stores other

include hw

/-- Discovery on one port keeps the states of all ports alike. -/
theorem AllRun.discoverPort_layout (h : p.erase = p'.erase) {st st' : AllRun} (hst : st.Alike st') (port : ℤ) :
    Option.Rel AllRun.Alike (st.discoverPort w host p port) (st'.discoverPort w host p' port) := by
  have hcall := callRun_layout (hw port) h host port (st.serviceOf port) (hst.stores port)
  unfold AllRun.discoverPort
  rw [← hst.serviceOf]
  generalize callRun (w port) host port p (st.serviceOf port) (st.stores port) = c at hcall ⊢
  generalize callRun (w port) host port p' (st.serviceOf port) (st'.stores port) = c' at hcall ⊢
  cases hcall with
  | none => exact .none
  | some hc =>
    have hrecord := hst.record port hc
    refine .some ⟨?_, hrecord.findings, hrecord.stores, hrecord.calls⟩
    simp only [hc.outcome.detectedService, hst.serviceOf]

/-- A check on one port keeps the states of all ports alike. -/
theorem AllRun.checkPort_layout (h : p.erase = p'.erase) {st st' : AllRun} (hst : st.Alike st') (port : ℤ) :
    Option.Rel AllRun.Alike (st.checkPort w host p port) (st'.checkPort w host p' port) := by
  have hcall := callRun_layout (hw port) h host port (st.serviceOf port) (hst.stores port)
  unfold AllRun.checkPort
  rw [admits_layout h, ← hst.serviceOf]
  split
  · generalize callRun (w port) host port p (st.serviceOf port) (st.stores port) = c at hcall ⊢
    generalize callRun (w port) host port p' (st.serviceOf port) (st'.stores port) = c' at hcall ⊢
    cases hcall with
    | none => exact .none
    | some hc => exact .some (hst.record port hc)
  · exact .some hst

/-- Discovery on every port keeps the states of all ports alike. -/
theorem AllRun.discover_layout (ports : List ℤ) (h : p.erase = p'.erase) {st st' : AllRun} (hst : st.Alike st') :
    Option.Rel AllRun.Alike (st.discover w host ports p) (st'.discover w host ports p') := by
  unfold AllRun.discover
  rw [filterAny_layout h]
  split
  · exact foldlM_rel (fun _ _ port hst => AllRun.discoverPort_layout hw host h hst port) ports hst
  · exact .some hst

/-- A check on every port keeps the states of all ports alike. -/
theorem AllRun.check_layout (ports : List ℤ) (h : p.erase = p'.erase) {st st' : AllRun} (hst : st.Alike st') :
    Option.Rel AllRun.Alike (st.check w host ports p) (st'.check w host ports p') := by
  unfold AllRun.check
  rw [filterAny_layout h]
  split
  · exact .some hst
  · exact foldlM_rel (fun _ _ port hst => AllRun.checkPort_layout hw host h hst port) ports hst

/-- The schedule over all ports runs alike. -/
theorem runAll_layout {ps ps' : List LoadedPlugin} (h : PluginsAlike ps ps') (ports : List ℤ) :
    Option.Rel AllRun.Alike (runAll w ps host ports) (runAll w ps' host ports) := by
  have hfirst := rel_foldlM
    (fun _ _ p p' hst (hp : p.erase = p'.erase) => AllRun.discover_layout hw host ports hp hst) h
    (s := {}) (t := {}) ⟨rfl, .nil, fun _ => .refl _, .nil⟩
  refine rel_bind hfirst fun st st' _ _ hst => ?_
  exact rel_foldlM (fun _ _ p p' hst (hp : p.erase = p'.erase) => AllRun.check_layout hw host ports hp hst) h hst

end All

/-- Reformatting the files of a plugin directory: the same plugins are loaded, `run_all` finds the same
services, makes the same calls and leaves like stores behind, and so does `run_for_port` on every port; their
findings differ at most in the places that the debug findings of run-time errors name. -/
theorem reformatted_directory {w : World} (hw : w.Blind) {net : ℤ → World} (hnet : ∀ port, (net port).Blind)
    (dir : Bytes) {entries entries' : List (Bytes × Bytes)} (h : EntriesReformatted entries entries') (host : Bytes)
    (ports : List ℤ) :
    Option.Rel (fun ps ps' => PluginsAlike ps ps' ∧
        Option.Rel AllRun.Alike (runAll net ps host ports) (runAll net ps' host ports) ∧
        ∀ port initialService, Option.Rel PortRun.Alike (runForPort (net port) ps host port initialService)
          (runForPort (net port) ps' host port initialService))
      (loadPluginsDir w dir entries) (loadPluginsDir w dir entries') := by
  have hload := loadPluginsDir_reformatted hw dir h
  generalize loadPluginsDir w dir entries = ps at hload ⊢
  generalize loadPluginsDir w dir entries' = ps' at hload ⊢
  cases hload with
  | none => exact .none
  | some hps =>
    exact .some ⟨hps, runAll_layout hnet host hps ports,
      fun port initialService => runForPort_layout (hnet port) hps host port initialService⟩

/-- Nothing answers, whatever the layout. -/
theorem silentNetwork_blind (cves : List CveEntry) : World.Blind ⟨silentNetwork, cves⟩ :=
  ⟨fun _ _ _ => rfl, fun _ _ _ => rfl, fun _ _ _ => rfl, fun _ _ _ => rfl, fun _ _ _ => rfl⟩

/-- A statement that stops on an error, with and without a comment in it. -/
theorem reformatted_sample : Reformatted (str "return - true") (str "return # z\n- true") := by
  have hreturn : TokenForm (.returnKw, str "return") (str "return") := .keyword (by decide)
  have hminus : TokenForm (.minus, str "-") (str "-") := .punctuation (by decide)
  have htrue : TokenForm (.trueKw, str "true") (str "true") := .keyword (by decide)
  have hblank : Trivia (str " ") := .blank (by decide) .nil
  have hcomment : Trivia (32 :: (str "#" ++ str " z" ++ 10 :: [])) := .blank (by decide) (.hash (by decide) .nil)
  have hrendering (gap text : Bytes) (hgap : Trivia gap) (hne : gap ≠ [])
      (htext : text = str "return" ++ (gap ++ (str "-" ++ (str " " ++ (str "true" ++ ([] ++ [])))))) :
      Rendering [(.returnKw, str "return"), (.minus, str "-"), (.trueKw, str "true")] text :=
    ⟨[], _, .nil, .cons hreturn hgap (fun _ => hne) (.cons hminus hblank (fun _ => by decide)
      (.cons htrue .nil (fun h => absurd rfl h) .nil)), htext⟩
  exact (hrendering _ _ hblank (by decide) (by decide)).reformatted (hrendering _ _ hcomment (by decide) (by decide))

/-- A directory whose plugin was written over two lines with a comment. -/
theorem reformatted_directory_sample :
    Option.Rel (fun ps ps' => PluginsAlike ps ps' ∧
        Option.Rel AllRun.Alike (runAll (fun _ => ⟨silentNetwork, []⟩) ps (str "h") [22])
          (runAll (fun _ => ⟨silentNetwork, []⟩) ps' (str "h") [22]) ∧
        ∀ port initialService, Option.Rel PortRun.Alike
          (runForPort ⟨silentNetwork, []⟩ ps (str "h") port initialService)
          (runForPort ⟨silentNetwork, []⟩ ps' (str "h") port initialService))
      (loadPluginsDir ⟨silentNetwork, []⟩ (str "plugins") [(str "a.ztl", str "return - true")])
      (loadPluginsDir ⟨silentNetwork, []⟩ (str "plugins") [(str "a.ztl", str "return # z\n- true")]) :=
  @reformatted_directory ⟨silentNetwork, []⟩ (silentNetwork_blind []) (fun _ => ⟨silentNetwork, []⟩)
    (fun _ => silentNetwork_blind []) (str "plugins") [(str "a.ztl", str "return - true")]
    [(str "a.ztl", str "return # z\n- true")] (.cons ⟨rfl, reformatted_sample⟩ .nil) (str "h") [22]

end Schedulers

end ZeroTrust.Ztl
