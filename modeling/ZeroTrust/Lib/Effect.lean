import Mathlib.Logic.Basic

/-!
# Computations with state, exceptions and faults

An `Effect` ends with a value, with an exception that handlers can catch, or with a fault that
nothing can catch; the state survives in each case. `Effect.Spec` relates the states before and
after, whatever the outcome, and bounds the exceptions and faults. `Effect.Logs` is for a state
with a log that only grows: the computation faults exactly when it logs something bad. Both are
closed under the combinators, so a fact about a whole interpreter follows from facts about its
primitive actions.
-/

namespace ZeroTrust

universe u

/-- How a computation ends, and in which state. -/
inductive Outcome (σ ε φ α : Type)
  | ok (a : α) (s : σ)
  | throw (e : ε) (s : σ)
  | fault (f : φ) (s : σ)

namespace Outcome

variable {σ τ ε ε' φ α : Type}

/-- The state at the end. -/
def state : Outcome σ ε φ α → σ
  | ok _ s | throw _ s | fault _ s => s

/-- The same outcome in another state. -/
def mapState (f : σ → τ) : Outcome σ ε φ α → Outcome τ ε φ α
  | ok a s => ok a (f s)
  | throw e s => throw e (f s)
  | fault p s => fault p (f s)

/-- The state of a mapped outcome. -/
@[simp] theorem state_mapState (f : σ → τ) (o : Outcome σ ε φ α) : (o.mapState f).state = f o.state := by
  cases o <;> rfl

/-- The computation ended by a fault. -/
def IsFault : Outcome σ ε φ α → Prop
  | fault _ _ => True
  | _ => False

instance (o : Outcome σ ε φ α) : Decidable o.IsFault := by
  cases o
  · exact isFalse id
  · exact isFalse id
  · exact isTrue trivial

/-- A mapped outcome is a fault if the outcome was one. -/
@[simp] theorem isFault_mapState (f : σ → τ) (o : Outcome σ ε φ α) :
    (o.mapState f).IsFault ↔ o.IsFault := by
  cases o <;> rfl

end Outcome

/-- A computation from a state. -/
def Effect (σ ε φ α : Type) := σ → Outcome σ ε φ α

namespace Effect

variable {σ ε ε' φ α β : Type}

/-- Run one computation and then another on its value. -/
def bind (p : Effect σ ε φ α) (k : α → Effect σ ε φ β) : Effect σ ε φ β := fun s =>
  match p s with
  | .ok a s => k a s
  | .throw e s => .throw e s
  | .fault f s => .fault f s

instance : Monad (Effect σ ε φ) where
  pure a := fun s => .ok a s
  bind := bind

/-- Raise an exception. -/
def throw (e : ε) : Effect σ ε φ α := fun s => .throw e s

/-- Stop for good. -/
def fault (f : φ) : Effect σ ε φ α := fun s => .fault f s

/-- Read from the state. -/
def gets (f : σ → α) : Effect σ ε φ α := fun s => .ok (f s) s

/-- Change the state. -/
def modify (f : σ → σ) : Effect σ ε φ Unit := fun s => .ok () (f s)

/-- Handle an exception. -/
def tryCatch (p : Effect σ ε φ α) (handler : ε → Effect σ ε' φ α) : Effect σ ε' φ α := fun s =>
  match p s with
  | .ok a s => .ok a s
  | .throw e s => handler e s
  | .fault f s => .fault f s

/-- Run in a changed state and restore a part of it afterwards, however the computation ends. -/
def within (enter : σ → σ) (leave : σ → σ → σ) (p : Effect σ ε φ α) : Effect σ ε φ α := fun s =>
  (p (enter s)).mapState (leave s)

section Run

variable {s s' : σ}

/-- A value leaves the state alone. -/
@[simp] theorem pure_run (a : α) : (pure a : Effect σ ε φ α) s = .ok a s := rfl

/-- An exception leaves the state alone. -/
@[simp] theorem throw_run (e : ε) : (throw e : Effect σ ε φ α) s = .throw e s := rfl

/-- A fault leaves the state alone. -/
@[simp] theorem fault_run (f : φ) : (fault f : Effect σ ε φ α) s = .fault f s := rfl

/-- Reading leaves the state alone. -/
@[simp] theorem gets_run (f : σ → α) : (gets f : Effect σ ε φ α) s = .ok (f s) s := rfl

/-- A change returns nothing. -/
@[simp] theorem modify_run (f : σ → σ) : (modify f : Effect σ ε φ Unit) s = .ok () (f s) := rfl

/-- A value goes to the continuation. -/
@[simp] theorem pure_bind_run (a : α) (k : α → Effect σ ε φ β) : (pure a >>= k) s = k a s := rfl

/-- What is read goes to the continuation. -/
@[simp] theorem gets_bind_run (f : σ → α) (k : α → Effect σ ε φ β) : (gets f >>= k) s = k (f s) s := rfl

/-- The continuation runs in the changed state. -/
@[simp] theorem modify_bind_run (f : σ → σ) (k : Unit → Effect σ ε φ β) :
    (modify f >>= k) s = k () (f s) := rfl

/-- Behind a value the continuation runs. -/
theorem bind_run_ok {p : Effect σ ε φ α} {a : α} (h : p s = .ok a s') (k : α → Effect σ ε φ β) :
    (p >>= k) s = k a s' := by
  show bind p k s = _
  rw [bind, h]

/-- An exception passes the continuation by. -/
theorem bind_run_throw {p : Effect σ ε φ α} {e : ε} (h : p s = .throw e s') (k : α → Effect σ ε φ β) :
    (p >>= k) s = .throw e s' := by
  show bind p k s = _
  rw [bind, h]

/-- A fault passes the continuation by. -/
theorem bind_run_fault {p : Effect σ ε φ α} {f : φ} (h : p s = .fault f s') (k : α → Effect σ ε φ β) :
    (p >>= k) s = .fault f s' := by
  show bind p k s = _
  rw [bind, h]

/-- A sequence that returns has returned from both parts. -/
theorem exists_of_bind_run_ok {p : Effect σ ε φ α} {k : α → Effect σ ε φ β} {b : β}
    (h : (p >>= k) s = .ok b s') : ∃ a t, p s = .ok a t ∧ k a t = .ok b s' := by
  cases hp : p s with
  | ok a t =>
    rw [bind_run_ok hp] at h
    exact ⟨a, t, rfl, h⟩
  | throw e t =>
    rw [bind_run_throw hp] at h
    cases h
  | fault f t =>
    rw [bind_run_fault hp] at h
    cases h

/-- A value passes the handler by. -/
theorem tryCatch_run_ok {p : Effect σ ε φ α} {a : α} (h : p s = .ok a s')
    (handler : ε → Effect σ ε' φ α) : p.tryCatch handler s = .ok a s' := by
  rw [tryCatch, h]

/-- A fault passes the handler by. -/
theorem tryCatch_run_fault {p : Effect σ ε φ α} {f : φ} (h : p s = .fault f s')
    (handler : ε → Effect σ ε' φ α) : p.tryCatch handler s = .fault f s' := by
  rw [tryCatch, h]

/-- An exception goes to the handler, in the state in which it was thrown. -/
theorem tryCatch_run_throw {p : Effect σ ε φ α} {e : ε} (h : p s = .throw e s')
    (handler : ε → Effect σ ε' φ α) : p.tryCatch handler s = handler e s' := by
  rw [tryCatch, h]

/-- The state is changed in front of a computation and behind it. -/
theorem within_run (enter : σ → σ) (leave : σ → σ → σ) (p : Effect σ ε φ α) :
    p.within enter leave s = (p (enter s)).mapState (leave s) := rfl

/-- A continuation that never faults adds no fault. -/
theorem isFault_bind {p : Effect σ ε φ α} {k : α → Effect σ ε φ β} (hk : ∀ a t, ¬(k a t).IsFault) :
    ((p >>= k) s).IsFault ↔ (p s).IsFault := by
  cases h : p s with
  | ok a t => rw [bind_run_ok h]; exact ⟨fun hf => (hk a t hf).elim, fun hf => hf.elim⟩
  | throw e t => rw [bind_run_throw h]; rfl
  | fault f t => rw [bind_run_fault h]; rfl

end Run

/-- States before and after are related by `R`; escaping exceptions are in `E` and faults in `F`. -/
def Spec (R : σ → σ → Prop) (E : ε → Prop) (F : φ → Prop) (p : Effect σ ε φ α) : Prop := ∀ s,
  match p s with
  | .ok _ t => R s t
  | .throw e t => R s t ∧ E e
  | .fault f t => R s t ∧ F f

section Spec

variable {R R' : σ → σ → Prop} {E E' : ε → Prop} {F F' : φ → Prop}

/-- The relation holds of the last state, whatever the outcome. -/
theorem Spec.state {p : Effect σ ε φ α} (h : Spec R E F p) (s : σ) : R s (p s).state := by
  have hs := h s
  cases hp : p s with
  | ok a t => rw [hp] at hs; exact hs
  | throw e t => rw [hp] at hs; exact hs.1
  | fault f t => rw [hp] at hs; exact hs.1

/-- An exception that escapes is one of those that may. -/
theorem Spec.exn {p : Effect σ ε φ α} (h : Spec R E F p) {s t : σ} {e : ε} (hp : p s = .throw e t) :
    E e := by
  have hs := h s
  rw [hp] at hs
  exact hs.2

/-- A computation without possible faults does not fault. -/
theorem Spec.not_isFault {p : Effect σ ε φ α} (h : Spec R E (fun _ => False) p) (s : σ) :
    ¬(p s).IsFault := by
  have hs := h s
  cases hp : p s with
  | ok a t => exact id
  | throw e t => exact id
  | fault f t => rw [hp] at hs; exact hs.2.elim

/-- A computation that neither throws nor faults returns. -/
theorem Spec.run_ok {p : Effect σ ε φ α} (h : Spec R (fun _ => False) (fun _ => False) p) (s : σ) :
    ∃ a t, p s = .ok a t ∧ R s t := by
  have hs := h s
  cases hp : p s with
  | ok a t => rw [hp] at hs; exact ⟨a, t, rfl, hs⟩
  | throw e t => rw [hp] at hs; exact hs.2.elim
  | fault f t => rw [hp] at hs; exact hs.2.elim

/-- A specification of the states alone. -/
theorem spec_of_state {p : Effect σ ε φ α} (h : ∀ s, R s (p s).state) :
    Spec R (fun _ => True) (fun _ => True) p := by
  intro s
  have hs := h s
  cases hp : p s with
  | ok a t => rw [hp] at hs; exact hs
  | throw e t => rw [hp] at hs; exact ⟨hs, trivial⟩
  | fault f t => rw [hp] at hs; exact ⟨hs, trivial⟩

/-- A specification can be weakened. -/
theorem Spec.mono {p : Effect σ ε φ α} (h : Spec R E F p) (hR : ∀ s t, R s t → R' s t)
    (hE : ∀ e, E e → E' e) (hF : ∀ f, F f → F' f) : Spec R' E' F' p := by
  intro s
  have hs := h s
  cases hp : p s with
  | ok a t => rw [hp] at hs; exact hR _ _ hs
  | throw e t => rw [hp] at hs; exact ⟨hR _ _ hs.1, hE _ hs.2⟩
  | fault f t => rw [hp] at hs; exact ⟨hR _ _ hs.1, hF _ hs.2⟩

/-- A value meets every specification that allows no change. -/
theorem spec_pure (hrefl : ∀ s, R s s) (a : α) : Spec R E F (pure a) := hrefl

/-- So does reading. -/
theorem spec_gets (hrefl : ∀ s, R s s) (f : σ → α) : Spec R E F (gets f) := hrefl

/-- A change meets the relation that it keeps. -/
theorem spec_modify {f : σ → σ} (h : ∀ s, R s (f s)) : Spec R E F (modify f) := h

/-- A change of the state before a computation. -/
theorem spec_modify_bind (R' : σ → σ → Prop) {f : σ → σ} {p : Effect σ ε φ α} (hp : Spec R' E F p)
    (h : ∀ s t, R' (f s) t → R s t) : Spec R E F (modify f >>= fun _ => p) := by
  intro s
  rw [modify_bind_run]
  have hrun := hp (f s)
  cases hrest : p (f s) with
  | ok a t => rw [hrest] at hrun; exact h s t hrun
  | throw e t => rw [hrest] at hrun; exact ⟨h s t hrun.1, hrun.2⟩
  | fault f t => rw [hrest] at hrun; exact ⟨h s t hrun.1, hrun.2⟩

/-- An exception that may escape. -/
theorem spec_throw (hrefl : ∀ s, R s s) {e : ε} (he : E e) : Spec R E F (throw e : Effect σ ε φ α) :=
  fun s => ⟨hrefl s, he⟩

/-- A fault that may happen. -/
theorem spec_fault (hrefl : ∀ s, R s s) {f : φ} (hf : F f) : Spec R E F (fault f : Effect σ ε φ α) :=
  fun s => ⟨hrefl s, hf⟩

/-- Specifications compose along a transitive relation. -/
theorem Spec.bind (htrans : ∀ s t u, R s t → R t u → R s u) {p : Effect σ ε φ α}
    {k : α → Effect σ ε φ β} (hp : Spec R E F p) (hk : ∀ a, Spec R E F (k a)) : Spec R E F (p >>= k) := by
  intro s
  have hfirst := hp s
  cases h : p s with
  | throw e t => rw [bind_run_throw h]; rw [h] at hfirst; exact hfirst
  | fault f t => rw [bind_run_fault h]; rw [h] at hfirst; exact hfirst
  | ok a t =>
    rw [bind_run_ok h]
    rw [h] at hfirst
    have hsecond := hk a t
    cases h' : k a t with
    | ok b u => rw [h'] at hsecond; exact htrans _ _ _ hfirst hsecond
    | throw e u => rw [h'] at hsecond; exact ⟨htrans _ _ _ hfirst hsecond.1, hsecond.2⟩
    | fault f u => rw [h'] at hsecond; exact ⟨htrans _ _ _ hfirst hsecond.1, hsecond.2⟩

/-- The handler is entered with the exceptions of the body only. -/
theorem Spec.tryCatch (htrans : ∀ s t u, R s t → R t u → R s u) {E' : ε' → Prop} {p : Effect σ ε φ α}
    {handler : ε → Effect σ ε' φ α} (hp : Spec R E F p) (hhandler : ∀ e, E e → Spec R E' F (handler e)) :
    Spec R E' F (p.tryCatch handler) := by
  intro s
  have hfirst := hp s
  unfold Effect.tryCatch
  cases h : p s with
  | ok a t => rw [h] at hfirst; exact hfirst
  | fault f t => rw [h] at hfirst; exact hfirst
  | throw e t =>
    rw [h] at hfirst
    have hsecond := hhandler e hfirst.2 t
    show match handler e t with
      | .ok _ u => R s u
      | .throw e u => R s u ∧ E' e
      | .fault f u => R s u ∧ F f
    cases h' : handler e t with
    | ok b u => rw [h'] at hsecond; exact htrans _ _ _ hfirst.1 hsecond
    | throw e u => rw [h'] at hsecond; exact ⟨htrans _ _ _ hfirst.1 hsecond.1, hsecond.2⟩
    | fault f u => rw [h'] at hsecond; exact ⟨htrans _ _ _ hfirst.1 hsecond.1, hsecond.2⟩

/-- Leaving a changed state restores the relation to the original one. -/
theorem Spec.within {enter : σ → σ} {leave : σ → σ → σ} {p : Effect σ ε φ α} (hp : Spec R' E F p)
    (h : ∀ s t, R' (enter s) t → R s (leave s t)) : Spec R E F (p.within enter leave) := by
  intro s
  have hinner := hp (enter s)
  unfold Effect.within
  cases hrun : p (enter s) with
  | ok a t => rw [hrun] at hinner; exact h s t hinner
  | throw e t => rw [hrun] at hinner; exact ⟨h s t hinner.1, hinner.2⟩
  | fault f t => rw [hrun] at hinner; exact ⟨h s t hinner.1, hinner.2⟩

/-- A choice between two computations that meet a specification. -/
theorem Spec.ite {c : Prop} [Decidable c] {p q : Effect σ ε φ α} (hp : Spec R E F p) (hq : Spec R E F q) :
    Spec R E F (if c then p else q) := by
  split
  · exact hp
  · exact hq

end Spec

section Logs

variable {κ : Type} {log : σ → List κ} {bad : κ → Prop}

/-- The log grows, and the computation faults exactly when it logs something bad. -/
def Logs (log : σ → List κ) (bad : κ → Prop) (p : Effect σ ε φ α) : Prop := ∀ s,
  ∃ entries, log (p s).state = log s ++ entries ∧ ((p s).IsFault ↔ ∃ k ∈ entries, bad k)

/-- Behind good entries the later ones decide. -/
theorem exists_bad_append {first second : List κ} (hgood : ¬∃ k ∈ first, bad k) :
    (∃ k ∈ first ++ second, bad k) ↔ ∃ k ∈ second, bad k := by
  simp only [List.mem_append, or_and_right, exists_or]
  exact or_iff_right hgood

/-- A computation that neither logs nor faults. -/
theorem logs_of_spec {E : ε → Prop} {p : Effect σ ε φ α}
    (h : Spec (fun s t => log t = log s) E (fun _ => False) p) : Logs log bad p := by
  intro s
  refine ⟨[], ?_, ?_⟩
  · rw [List.append_nil]
    exact h.state s
  · exact ⟨fun hf => (h.not_isFault s hf).elim, nofun⟩

/-- What two computations log, one after the other. -/
theorem Logs.bind {p : Effect σ ε φ α} {k : α → Effect σ ε φ β} (hp : Logs log bad p)
    (hk : ∀ a, Logs log bad (k a)) : Logs log bad (p >>= k) := by
  intro s
  obtain ⟨first, hlog, hfault⟩ := hp s
  cases h : p s with
  | throw e t => rw [bind_run_throw h]; rw [h] at hlog hfault; exact ⟨first, hlog, hfault⟩
  | fault f t => rw [bind_run_fault h]; rw [h] at hlog hfault; exact ⟨first, hlog, hfault⟩
  | ok a t =>
    rw [bind_run_ok h]
    rw [h] at hlog hfault
    obtain ⟨second, hlog', hfault'⟩ := hk a t
    refine ⟨first ++ second, ?_, ?_⟩
    · rw [hlog', ← List.append_assoc]
      exact congrArg (· ++ second) hlog
    · have hgood : ¬∃ k ∈ first, bad k := fun hbad => hfault.mpr hbad
      rw [hfault', exists_bad_append hgood]

/-- What a computation and its handler log. -/
theorem Logs.tryCatch {p : Effect σ ε φ α} {handler : ε → Effect σ ε' φ α} (hp : Logs log bad p)
    (hhandler : ∀ e, Logs log bad (handler e)) : Logs log bad (p.tryCatch handler) := by
  intro s
  obtain ⟨first, hlog, hfault⟩ := hp s
  unfold Effect.tryCatch
  cases h : p s with
  | ok a t => rw [h] at hlog hfault; exact ⟨first, hlog, hfault⟩
  | fault f t => rw [h] at hlog hfault; exact ⟨first, hlog, hfault⟩
  | throw e t =>
    rw [h] at hlog hfault
    obtain ⟨second, hlog', hfault'⟩ := hhandler e t
    refine ⟨first ++ second, ?_, ?_⟩
    · show log (handler e t).state = _
      rw [hlog', ← List.append_assoc]
      exact congrArg (· ++ second) hlog
    · show (handler e t).IsFault ↔ _
      have hgood : ¬∃ k ∈ first, bad k := fun hbad => hfault.mpr hbad
      rw [hfault', exists_bad_append hgood]

/-- Entering and leaving do not touch the log. -/
theorem Logs.within {enter : σ → σ} {leave : σ → σ → σ} {p : Effect σ ε φ α} (hp : Logs log bad p)
    (henter : ∀ s, log (enter s) = log s) (hleave : ∀ s t, log (leave s t) = log t) :
    Logs log bad (p.within enter leave) := by
  intro s
  obtain ⟨entries, hlog, hfault⟩ := hp (enter s)
  refine ⟨entries, ?_, ?_⟩
  · rw [Effect.within, Outcome.state_mapState, hleave, hlog, henter]
  · rw [Effect.within, Outcome.isFault_mapState]
    exact hfault

/-- An entry written before a computation that faults just when the entry or what it logs is bad. -/
theorem logs_entry {f : σ → σ} {p : Effect σ ε φ α} (entry : σ → κ) (hf : ∀ s, log (f s) = log s ++ [entry s])
    (hp : ∀ s, ∃ entries, log (p (f s)).state = log (f s) ++ entries ∧
      ((p (f s)).IsFault ↔ bad (entry s) ∨ ∃ k ∈ entries, bad k)) :
    Logs log bad (modify f >>= fun _ => p) := by
  intro s
  obtain ⟨entries, hlog, hfault⟩ := hp s
  refine ⟨entry s :: entries, ?_, ?_⟩
  · rw [modify_bind_run, hlog, hf, List.append_assoc, List.singleton_append]
  · rw [modify_bind_run, hfault]
    simp only [List.mem_cons, exists_eq_or_imp]

end Logs

section Atomic

/-- What a computation has changed when it throws is nothing. -/
def Atomic (p : Effect σ ε φ α) : Prop := ∀ s e t, p s = .throw e t → t = s

/-- Throwing changes nothing. -/
theorem atomic_throw (e : ε) : Atomic (throw e : Effect σ ε φ α) := by
  intro s e' t h
  cases h
  rfl

/-- A computation that always returns never throws. -/
theorem atomic_of_ok {p : Effect σ ε φ α} (h : ∀ s, ∃ a t, p s = .ok a t) : Atomic p := by
  intro s e t hthrow
  obtain ⟨a, t', hok⟩ := h s
  cases hok.symm.trans hthrow

/-- Reading before a computation changes nothing either. -/
theorem Atomic.gets_bind {k : α → Effect σ ε φ β} (hk : ∀ a, Atomic (k a)) (f : σ → α) : Atomic (gets f >>= k) :=
  fun s e t h => hk (f s) s e t h

end Atomic

section Keeps

variable {I : σ → Prop} {P : α → Prop} {Q : β → Prop}

/-- What the computation returns has a property. -/
def Returns (P : α → Prop) (p : Effect σ ε φ α) : Prop := ∀ s a t, p s = .ok a t → P a

/-- A value with the property. -/
theorem returns_pure {a : α} (h : P a) : Returns P (pure a : Effect σ ε φ α) := by
  intro s b t hb
  cases hb
  exact h

/-- An exception returns nothing. -/
theorem returns_throw (e : ε) : Returns P (throw e : Effect σ ε φ α) := nofun

/-- A fault returns nothing. -/
theorem returns_fault (f : φ) : Returns P (fault f : Effect σ ε φ α) := nofun

/-- The result comes from the continuation. -/
theorem returns_bind {k : α → Effect σ ε φ β} (hk : ∀ a, Returns Q (k a)) (p : Effect σ ε φ α) :
    Returns Q (p >>= k) := by
  intro s b u h
  cases hp : p s with
  | ok a t => rw [bind_run_ok hp] at h; exact hk a t b u h
  | throw e t => rw [bind_run_throw hp] at h; cases h
  | fault f t => rw [bind_run_fault hp] at h; cases h

/-- An invariant survives, however the computation ends, and what is returned has a property. -/
def Keeps (I : σ → Prop) (P : α → Prop) (p : Effect σ ε φ α) : Prop := ∀ s, I s →
  I (p s).state ∧ ∀ a t, p s = .ok a t → P a

/-- The property of the result can be weakened. -/
theorem Keeps.mono {P' : α → Prop} {p : Effect σ ε φ α} (h : Keeps I P p) (hP : ∀ a, P a → P' a) : Keeps I P' p :=
  fun s hs => ⟨(h s hs).1, fun a t ha => hP a ((h s hs).2 a t ha)⟩

/-- A value with the property keeps every invariant. -/
theorem keeps_pure {a : α} (h : P a) : Keeps I P (pure a : Effect σ ε φ α) :=
  fun s hs => ⟨hs, returns_pure h s⟩

/-- What is read has the property where the invariant holds. -/
theorem keeps_gets {f : σ → α} (h : ∀ s, I s → P (f s)) : Keeps I P (gets f : Effect σ ε φ α) := by
  intro s hs
  refine ⟨hs, fun a t ha => ?_⟩
  cases ha
  exact h s hs

/-- An exception keeps every invariant. -/
theorem keeps_throw (e : ε) : Keeps I P (throw e : Effect σ ε φ α) := fun _ hs => ⟨hs, nofun⟩

/-- A fault keeps every invariant. -/
theorem keeps_fault (f : φ) : Keeps I P (fault f : Effect σ ε φ α) := fun _ hs => ⟨hs, nofun⟩

/-- A change that keeps the invariant. -/
theorem keeps_modify {f : σ → σ} (h : ∀ s, I s → I (f s)) : Keeps I (fun _ => True) (modify f : Effect σ ε φ Unit) :=
  fun s hs => ⟨h s hs, fun _ _ _ => trivial⟩

/-- The continuation may use what is known of the result. -/
theorem Keeps.bind {p : Effect σ ε φ α} {k : α → Effect σ ε φ β} (hp : Keeps I P p)
    (hk : ∀ a, P a → Keeps I Q (k a)) : Keeps I Q (p >>= k) := by
  intro s hs
  have hfirst := hp s hs
  cases h : p s with
  | ok a t =>
    rw [h] at hfirst
    rw [bind_run_ok h]
    exact hk a (hfirst.2 a t rfl) t hfirst.1
  | throw e t =>
    rw [h] at hfirst
    rw [bind_run_throw h]
    exact ⟨hfirst.1, nofun⟩
  | fault f t =>
    rw [h] at hfirst
    rw [bind_run_fault h]
    exact ⟨hfirst.1, nofun⟩

/-- A handler runs in a state with the invariant. -/
theorem Keeps.tryCatch {p : Effect σ ε φ α} {handler : ε → Effect σ ε' φ α} (hp : Keeps I P p)
    (hhandler : ∀ e, Keeps I P (handler e)) : Keeps I P (p.tryCatch handler) := by
  intro s hs
  have hbody := hp s hs
  cases h : p s with
  | ok a t =>
    rw [h] at hbody
    rw [tryCatch_run_ok h]
    refine ⟨hbody.1, fun b u hb => ?_⟩
    cases hb
    exact hbody.2 a t rfl
  | throw e t =>
    rw [h] at hbody
    rw [tryCatch_run_throw h]
    exact hhandler e t hbody.1
  | fault f t =>
    rw [h] at hbody
    rw [tryCatch_run_fault h]
    exact ⟨hbody.1, nofun⟩

/-- Entering and leaving keep the invariant. -/
theorem Keeps.within {enter : σ → σ} {leave : σ → σ → σ} {p : Effect σ ε φ α} (hp : Keeps I P p)
    (henter : ∀ s, I s → I (enter s)) (hleave : ∀ s t, I s → I t → I (leave s t)) :
    Keeps I P (p.within enter leave) := by
  intro s hs
  have hinner := hp (enter s) (henter s hs)
  rw [within_run]
  constructor
  · rw [Outcome.state_mapState]
    exact hleave s _ hs hinner.1
  · intro a t ha
    cases h : p (enter s) with
    | ok b u =>
      rw [h] at ha
      cases ha
      exact hinner.2 _ u h
    | throw e u => rw [h] at ha; cases ha
    | fault f u => rw [h] at ha; cases ha

end Keeps

end Effect

end ZeroTrust
