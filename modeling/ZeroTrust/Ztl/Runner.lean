import ZeroTrust.Lib.Components
import ZeroTrust.Ztl.Interpreter
import ZeroTrust.Ztl.Lexer
import ZeroTrust.Ztl.Parser

/-!
# The runner

Loading a plugin, running it against a port, and the two schedulers of `runner.cpp`. The process
does not survive a fault, so whatever needs a run that faults has no result. The schedulers record
the runs they make; the record is read by specifications only.
-/

namespace ZeroTrust.Ztl

open Function (update)

/-- `ztl::RunOutcome`. -/
structure RunOutcome where
  pluginMeta : PluginMeta
  findings : List FindingOut
  detectedService : Bytes
  detectedProduct : Bytes
  detectedVersion : Bytes
  detectedPort : ℤ

/-- What `run_plugin` returns of the state of its run. -/
def RunState.outcome (state : RunState) : RunOutcome where
  pluginMeta := state.pluginMeta
  findings := state.findings
  detectedService := state.setService
  detectedProduct := state.setProduct
  detectedVersion := state.setVersion
  detectedPort := if state.setService.isEmpty then 0 else state.targetPort

/-- The debug finding for an error that escaped. -/
def errorFinding (p : LoadedPlugin) (state : RunState) (port : ℤ) (what : Bytes) : FindingOut where
  pluginName := if state.pluginMeta.name.isEmpty then p.sourcePath else state.pluginMeta.name
  severity := str "debug"
  title := str "Plugin runtime error"
  description := what
  portNumber := portNumber port

/-- The handlers of `run_plugin`. -/
def buryError (p : LoadedPlugin) (run : ℕ) (port : ℤ) : Exn → Eval Unit
  | .returned _ => pure ()
  | .runtimeError e => changeRun run fun state =>
      { state with findings := state.findings ++ [errorFinding p state port e.what] }

/-- A new run with its first event. -/
def Store.begin (s : Store) (state : RunState) (e : NetEvent) : Store :=
  { s with
    runs := update s.runs s.nextRun state
    nextRun := s.nextRun + 1
    history := e :: s.history }

/-- The machine that `run_plugin` hands to the program, before the library is registered. -/
def initialMachine (p : LoadedPlugin) (host : Bytes) (port : ℤ) (known : Bytes) (hasKb : Bool)
    (s : Store) : Machine where
  store := s.begin
    { targetHost := host, targetPort := port, knownService := known, hasKb := hasKb }
    (.start p host port)

/-- The interpretation inside `run_plugin`, before its handlers. -/
def interpretPlugin (w : World) (p : LoadedPlugin) (run : ℕ) : Eval Unit := do
  registerStdlib run
  runProgram w p.program

/-- `run_plugin` as a computation. -/
def runPluginEval (w : World) (p : LoadedPlugin) (run : ℕ) (port : ℤ) : Eval Unit :=
  (interpretPlugin w p run).tryCatch (buryError p run port)

/-- `run_plugin`: its outcome and what it leaves behind. -/
def runPlugin (w : World) (p : LoadedPlugin) (host : Bytes) (port : ℤ) (known : Bytes) (hasKb : Bool)
    (s : Store) : Option (RunOutcome × Store) :=
  match runPluginEval w p s.nextRun port (initialMachine p host port known hasKb s) with
  | .ok _ m => some ((m.store.runs s.nextRun).outcome, m.store)
  | _ => none

/-- The preload of `load_plugin`: metadata that an exception discards. The result is missing when the
interpretation faults. -/
def preload (w : World) (program : Program) (path : Bytes) : Option PluginMeta :=
  let p : LoadedPlugin := { program := program, sourcePath := path }
  let s : Store := Store.begin {} { targetHost := str "0.0.0.0", metaOnly := true }
    (.start p (str "0.0.0.0") 0)
  match interpretPlugin w p 0 { store := s } with
  | .ok _ m => some (m.store.runs 0).pluginMeta
  | .throw _ _ => some {}
  | .fault _ _ => none

/-- Why a file is no plugin. -/
inductive LoadError
  | lex (e : LexError)
  | parse (e : ParseFailure)
  | fault

/-- `load_plugin` on the text of a file. -/
def loadPlugin (w : World) (path text : Bytes) : Except LoadError LoadedPlugin :=
  match tokenize text with
  | .error e => .error (.lex e)
  | .ok [] => .error (.parse .diverges)
  | .ok (cur :: rest) =>
    match parseProgram cur rest with
    | .error e => .error (.parse e)
    | .ok program =>
      match preload w program path with
      | none => .error .fault
      | some previewMeta => .ok { program := program, sourcePath := path, previewMeta := previewMeta }

/-- `load_plugins_dir` on the entries that `readdir` delivers, each with its text; files that do not
load are skipped. -/
def loadPluginsDir (w : World) (dir : Bytes) : List (Bytes × Bytes) → Option (List LoadedPlugin)
  | [] => some []
  | (name, text) :: entries =>
    if name.length < 5 ∨ name.drop (name.length - 4) ≠ str ".ztl" then loadPluginsDir w dir entries
    else match loadPlugin w (dir ++ str "/" ++ name) text with
      | .ok p => (loadPluginsDir w dir entries).map (p :: ·)
      | .error .fault => none
      | .error _ => loadPluginsDir w dir entries

/-- One call of `run_plugin`, with what it was given and what it returned. -/
structure RunCall where
  plugin : LoadedPlugin
  known : Bytes
  before : Store
  outcome : RunOutcome
  after : Store

/-- Make a call. -/
def callRun (w : World) (host : Bytes) (port : ℤ) (p : LoadedPlugin) (known : Bytes) (s : Store) :
    Option RunCall :=
  (runPlugin w p host port known true s).map fun (outcome, after) => ⟨p, known, s, outcome, after⟩

/-- Whether the second pass runs a plugin under a service. -/
def LoadedPlugin.admits (p : LoadedPlugin) (svc : Bytes) : Bool :=
  p.previewMeta.filterService.isEmpty || p.previewMeta.filterService == svc

/-- `DetectedInfo`. -/
structure DetectedInfo where
  service : Bytes := []
  product : Bytes := []
  version : Bytes := []
deriving DecidableEq, Repr

/-- A later claim replaces an earlier one unless it is empty. -/
def claimed (old new : Bytes) : Bytes := if new.isEmpty then old else new

/-- The info after the claims of a run. -/
def DetectedInfo.absorb (info : DetectedInfo) (r : RunOutcome) : DetectedInfo where
  service := claimed info.service r.detectedService
  product := claimed info.product r.detectedProduct
  version := claimed info.version r.detectedVersion

/-- The variables of `run_for_port`, and the calls made. -/
structure PortRun where
  info : DetectedInfo := {}
  findings : List FindingOut := []
  store : Store := {}
  calls : List RunCall := []

/-- `absorb(run_plugin(..))` in `run_for_port`. -/
def PortRun.step (w : World) (host : Bytes) (port : ℤ) (st : PortRun) (p : LoadedPlugin) : Option PortRun :=
  (callRun w host port p st.info.service st.store).map fun call =>
    { info := st.info.absorb call.outcome
      findings := st.findings ++ call.outcome.findings
      store := call.after
      calls := st.calls ++ [call] }

/-- One iteration of the first loop of `run_for_port`. -/
def PortRun.discover (w : World) (host : Bytes) (port : ℤ) (st : PortRun) (p : LoadedPlugin) :
    Option PortRun :=
  if p.previewMeta.filterAny then st.step w host port p else some st

/-- One iteration of the second loop of `run_for_port`. -/
def PortRun.check (w : World) (host : Bytes) (port : ℤ) (st : PortRun) (p : LoadedPlugin) :
    Option PortRun :=
  if p.previewMeta.filterAny then some st
  else if p.admits st.info.service then st.step w host port p
  else some st

/-- What `run_for_port` starts from. -/
def PortRun.initial (initialService : Bytes) : PortRun where
  info := { service := initialService }
  store := { kb := if initialService.isEmpty then Env.empty
             else Env.empty.set (str "service") (.string initialService) }

/-- `run_for_port`, with all its variables at the end. -/
def runForPort (w : World) (plugins : List LoadedPlugin) (host : Bytes) (port : ℤ) (initialService : Bytes) :
    Option PortRun := do
  let st ← plugins.foldlM (PortRun.discover w host port) (PortRun.initial initialService)
  plugins.foldlM (PortRun.check w host port) st

/-- What holds at the start of `run_for_port` and survives every run of a plugin holds when it returns. -/
theorem runForPort_invariant {w : World} {plugins : List LoadedPlugin} {host : Bytes} {port : ℤ}
    {initialService : Bytes} {P : PortRun → Prop} (initially : P (PortRun.initial initialService))
    (preserved : ∀ st p st', P st → st.step w host port p = some st' → P st') {st : PortRun}
    (h : runForPort w plugins host port initialService = some st) : P st := by
  obtain ⟨st₁, hfirst, hsecond⟩ := Option.bind_eq_some_iff.mp h
  have hst₁ : P st₁ := by
    refine foldlM_invariant (fun st p _ st' hst hbody => ?_) initially hfirst
    unfold PortRun.discover at hbody
    split at hbody
    · exact preserved st p st' hst hbody
    · exact Option.some.inj hbody ▸ hst
  refine foldlM_invariant (fun st p _ st' hst hbody => ?_) hst₁ hsecond
  unfold PortRun.check at hbody
  split at hbody
  · exact Option.some.inj hbody ▸ hst
  · split at hbody
    · exact preserved st p st' hst hbody
    · exact Option.some.inj hbody ▸ hst

/-- The variables of `run_all`, and the calls made with their ports. -/
structure AllRun where
  serviceOf : ℤ → Bytes := fun _ => []
  stores : ℤ → Store := fun _ => {}
  findings : List FindingOut := []
  calls : List (ℤ × RunCall) := []

/-- What both loops of `run_all` do with a run. -/
def AllRun.record (st : AllRun) (port : ℤ) (call : RunCall) : AllRun :=
  { st with
    stores := update st.stores port call.after
    findings := st.findings ++ call.outcome.findings
    calls := st.calls ++ [(port, call)] }

/-- The body of the first loop of `run_all`. -/
def AllRun.discoverPort (w : ℤ → World) (host : Bytes) (p : LoadedPlugin) (st : AllRun) (port : ℤ) :
    Option AllRun :=
  (callRun (w port) host port p (st.serviceOf port) (st.stores port)).map fun call =>
    { st.record port call with
      serviceOf := update st.serviceOf port (claimed (st.serviceOf port) call.outcome.detectedService) }

/-- The body of the second loop of `run_all`: a claim is not noted. -/
def AllRun.checkPort (w : ℤ → World) (host : Bytes) (p : LoadedPlugin) (st : AllRun) (port : ℤ) :
    Option AllRun :=
  if p.admits (st.serviceOf port) then
    (callRun (w port) host port p (st.serviceOf port) (st.stores port)).map (st.record port)
  else some st

/-- One iteration of the first loop of `run_all`. -/
def AllRun.discover (w : ℤ → World) (host : Bytes) (ports : List ℤ) (st : AllRun) (p : LoadedPlugin) :
    Option AllRun :=
  if p.previewMeta.filterAny then ports.foldlM (AllRun.discoverPort w host p) st else some st

/-- One iteration of the second loop of `run_all`. -/
def AllRun.check (w : ℤ → World) (host : Bytes) (ports : List ℤ) (st : AllRun) (p : LoadedPlugin) :
    Option AllRun :=
  if p.previewMeta.filterAny then some st else ports.foldlM (AllRun.checkPort w host p) st

/-- `run_all`, with all its variables at the end. -/
def runAll (w : ℤ → World) (plugins : List LoadedPlugin) (host : Bytes) (ports : List ℤ) : Option AllRun := do
  let st ← plugins.foldlM (AllRun.discover w host ports) {}
  plugins.foldlM (AllRun.check w host ports) st

end ZeroTrust.Ztl
