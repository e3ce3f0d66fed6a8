import Mathlib.Data.List.Induction

/-!
# Runs of a system that takes one event at a time

The system is a guarded step function: an event that is not possible in a state has no successor. A run
records the events that led from one state to another, so that properties of whole histories are
invariants of the events and the state together.
-/

namespace ZeroTrust

universe u v

variable {σ : Type u} {α : Type v} {step : σ → α → Option σ}

/-- The events that lead from one state to another. -/
inductive Run (step : σ → α → Option σ) (start : σ) : List α → σ → Prop
  | nil : Run step start [] start
  | next {trace : List α} {s s' : σ} {a : α} (run : Run step start trace s) (taken : step s a = some s') :
    Run step start (trace ++ [a]) s'

namespace Run

variable {start s : σ} {trace : List α}

/-- What holds of the empty history and survives every event holds of every history. -/
theorem invariant (I : List α → σ → Prop) (initially : I [] start)
    (preserved : ∀ trace s a s', Run step start trace s → I trace s → step s a = some s' → I (trace ++ [a]) s')
    (run : Run step start trace s) : I trace s := by
  induction run with
  | nil => exact initially
  | next run taken ih => exact preserved _ _ _ _ run ih taken

/-- Runs are evaluated by folding the step function. -/
theorem iff_foldlM : Run step start trace s ↔ trace.foldlM step start = some s := by
  constructor
  · intro run
    induction run with
    | nil => rfl
    | next run taken ih =>
      rw [List.foldlM_append, ih]
      exact (Option.bind_some _ _).trans (by rw [List.foldlM_cons, taken]; rfl)
  · induction trace using List.reverseRecOn generalizing s with
    | nil =>
      intro h
      cases h
      exact .nil
    | append_singleton trace a ih =>
      intro h
      rw [List.foldlM_append] at h
      obtain ⟨mid, hmid, h⟩ := Option.bind_eq_some_iff.mp h
      rw [List.foldlM_cons] at h
      obtain ⟨last, hlast, h⟩ := Option.bind_eq_some_iff.mp h
      cases h
      exact .next (ih hmid) hlast

/-- A run to a state with a property is found by running the system. -/
theorem exists_of_any {p : σ → Bool} (h : (trace.foldlM step start).any p = true) :
    ∃ s, Run step start trace s ∧ p s = true := by
  cases hlast : trace.foldlM step start with
  | none =>
    rw [hlast] at h
    cases h
  | some s =>
    rw [hlast] at h
    exact ⟨s, iff_foldlM.mpr hlast, h⟩

/-- A run passes through a state at every point of its history. -/
theorem split {before after : List α} (run : Run step start (before ++ after) s) :
    ∃ mid, Run step start before mid ∧ Run step mid after s := by
  rw [iff_foldlM, List.foldlM_append] at run
  obtain ⟨mid, hbefore, hafter⟩ := Option.bind_eq_some_iff.mp run
  exact ⟨mid, iff_foldlM.mpr hbefore, iff_foldlM.mpr hafter⟩

/-- Runs can be continued. -/
theorem append {mid : σ} {before after : List α} (first : Run step start before mid)
    (second : Run step mid after s) : Run step start (before ++ after) s := by
  rw [iff_foldlM] at first second ⊢
  rw [List.foldlM_append, first]
  exact second

/-- The event at some point of a history was taken there. -/
theorem taken_at {before after : List α} {a : α} (run : Run step start (before ++ a :: after) s) :
    ∃ mid mid', Run step start before mid ∧ step mid a = some mid' ∧ Run step mid' after s := by
  obtain ⟨mid, hbefore, hrest⟩ := run.split
  rw [iff_foldlM, List.foldlM_cons] at hrest
  obtain ⟨mid', htaken, hafter⟩ := Option.bind_eq_some_iff.mp hrest
  exact ⟨mid, mid', hbefore, htaken, iff_foldlM.mpr hafter⟩

end Run

/-- A history can be run to its end exactly when none of its events is impossible where it comes. -/
theorem foldlM_isSome_iff {start : σ} {events : List α} :
    (events.foldlM step start).isSome ↔
      ∀ before a after s, events = before ++ a :: after → Run step start before s → (step s a).isSome := by
  constructor
  · rintro hsome before a after s rfl run
    rw [List.foldlM_append, Run.iff_foldlM.mp run] at hsome
    cases hstep : step s a with
    | some s' => rfl
    | none =>
      have hnone : (a :: after).foldlM step s = none := by rw [List.foldlM_cons, hstep]; rfl
      change ((a :: after).foldlM step s).isSome = true at hsome
      rw [hnone] at hsome
      cases hsome
  · intro hpossible
    induction events using List.reverseRecOn with
    | nil => rfl
    | append_singleton events a ih =>
      have hbefore : (events.foldlM step start).isSome := by
        refine ih fun before b after s hsplit run => hpossible before b (after ++ [a]) s ?_ run
        rw [hsplit, List.append_assoc, List.cons_append]
      obtain ⟨s, hs⟩ := Option.isSome_iff_exists.mp hbefore
      obtain ⟨s', hs'⟩ := Option.isSome_iff_exists.mp (hpossible events a [] s rfl (Run.iff_foldlM.mpr hs))
      rw [Run.iff_foldlM.mp (.next (Run.iff_foldlM.mpr hs) hs')]
      rfl

/-- A property of every event and what precedes it, by positions. -/
theorem forall_splits_iff {events : List α} {P : List α → α → Prop} :
    (∀ before a after, events = before ++ a :: after → P before a) ↔
      ∀ i (h : i < events.length), P (events.take i) events[i] := by
  constructor
  · intro hall i h
    exact hall _ _ (events.drop (i + 1)) (by rw [List.getElem_cons_drop, List.take_append_drop])
  · rintro hall before a after rfl
    have hi := hall before.length (by simp)
    simpa using hi

end ZeroTrust
