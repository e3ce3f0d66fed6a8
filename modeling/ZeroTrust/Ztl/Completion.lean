import ZeroTrust.Ztl.Reported
import ZeroTrust.Ztl.Schedulers

/-!
# When `run_for_port` returns

A plugin can end the process or make it wait for ever only through its native calls. So `run_for_port` returns
exactly when every native call of every run that it comes to is safe in the state in which it is made.
-/

namespace ZeroTrust.Ztl

/-- Whether an iteration runs its plugin. -/
def PortRun.runs (st : PortRun) : Pass × LoadedPlugin → Bool
  | (.discovery, p) => p.previewMeta.filterAny
  | (.checks, p) => p.waitsFor st.info.service

/-- Every native call of every plugin run that `run_for_port` comes to is safe in the state in which it is made. -/
def PortCallsSafe (w : World) (plugins : List LoadedPlugin) (host : Bytes) (port : ℤ) (initialService : Bytes) : Prop :=
  ∀ made visit rest st, iterations plugins = made ++ visit :: rest →
    Run (PortRun.visit w host port) (PortRun.initial initialService) made st → st.runs visit = true →
      ∀ c ∈ runCalls w visit.2 host port st.info.service true st.store, c.safe w = true

section Port

variable {w : World} {plugins : List LoadedPlugin} {host : Bytes} {port : ℤ} {initialService : Bytes} {st : PortRun}

/-- A run of a plugin is a step when `run_plugin` returns. -/
theorem PortRun.step_isSome {p : LoadedPlugin} :
    (st.step w host port p).isSome = (runPlugin w p host port st.info.service true st.store).isSome := by
  rw [PortRun.step, callRun, Option.isSome_map, Option.isSome_map]

/-- An iteration comes to its end when it runs no plugin or the run returns. -/
theorem PortRun.visit_isSome_iff (visit : Pass × LoadedPlugin) :
    (st.visit w host port visit).isSome ↔ (st.runs visit = true →
      ∀ c ∈ runCalls w visit.2 host port st.info.service true st.store, c.safe w = true) := by
  have hstep := @runPlugin_isSome_iff w visit.2 host port st.info.service true st.store
  rw [← hstep, ← @PortRun.step_isSome w host port st visit.2]
  obtain ⟨pass, p⟩ := visit
  cases pass with
  | discovery =>
    rw [PortRun.visit, PortRun.discover, PortRun.runs]
    split
    · next hruns => exact (imp_iff_right hruns).symm
    · next hskips => exact iff_of_true rfl fun hruns => absurd hruns hskips
  | checks =>
    rw [PortRun.visit, PortRun.runs]
    cases hwaits : p.waitsFor st.info.service with
    | true =>
      rw [PortRun.check_of_waitsFor hwaits]
      exact (imp_iff_right rfl).symm
    | false =>
      rw [PortRun.check_of_not_waitsFor hwaits]
      exact iff_of_true rfl fun hruns => absurd hruns Bool.false_ne_true

/-- `run_for_port` returns exactly when its plugins make safe calls. -/
theorem runForPort_isSome_iff :
    (runForPort w plugins host port initialService).isSome ↔ PortCallsSafe w plugins host port initialService := by
  rw [runForPort_eq_foldlM, foldlM_isSome_iff]
  simp only [PortRun.visit_isSome_iff]
  rfl

end Port

end ZeroTrust.Ztl
