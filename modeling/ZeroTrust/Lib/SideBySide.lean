import ZeroTrust.Lib.Effect

/-!
# Computations side by side

Two computations are alike when from related states they end in the same way: both with related
values, both with related exceptions, or both with one fault, and again in related states. The
combinators keep this, each under the relation that it needs between the values it passes on, so
two interpreters or two inputs of one interpreter are compared by comparing their actions.
-/

namespace ZeroTrust

/-- Outcomes of one kind with related contents. -/
inductive Outcome.Alike {σ τ ε ε' φ α β : Type} (R : σ → τ → Prop) (E : ε → ε' → Prop) (V : α → β → Prop) :
    Outcome σ ε φ α → Outcome τ ε' φ β → Prop
  | ok {a : α} {b : β} {s : σ} {t : τ} (hv : V a b) (hs : R s t) : Alike R E V (.ok a s) (.ok b t)
  | throw {e : ε} {e' : ε'} {s : σ} {t : τ} (he : E e e') (hs : R s t) : Alike R E V (.throw e s) (.throw e' t)
  | fault {f : φ} {s : σ} {t : τ} (hs : R s t) : Alike R E V (.fault f s) (.fault f t)

namespace Effect

/-- From related states the computations have like outcomes. -/
def Alike {σ τ ε ε' φ α β : Type} (R : σ → τ → Prop) (E : ε → ε' → Prop) (V : α → β → Prop)
    (p : Effect σ ε φ α) (q : Effect τ ε' φ β) : Prop := ∀ s t, R s t → (p s).Alike R E V (q t)

section

variable {σ τ ε ε' φ α β α' β' : Type} {R : σ → τ → Prop} {E : ε → ε' → Prop} {V : α → β → Prop}

/-- Related values. -/
theorem alike_pure {a : α} {b : β} (h : V a b) :
    Alike R E V (pure a : Effect σ ε φ α) (pure b : Effect τ ε' φ β) :=
  fun _ _ hs => .ok h hs

/-- Related exceptions. -/
theorem alike_throw {e : ε} {e' : ε'} (h : E e e') :
    Alike R E V (throw e : Effect σ ε φ α) (throw e' : Effect τ ε' φ β) :=
  fun _ _ hs => .throw h hs

/-- The same fault. -/
theorem alike_fault (f : φ) : Alike R E V (fault f : Effect σ ε φ α) (fault f : Effect τ ε' φ β) :=
  fun _ _ hs => .fault hs

/-- Reading related values of related states. -/
theorem alike_gets {f : σ → α} {g : τ → β} (h : ∀ s t, R s t → V (f s) (g t)) :
    Alike R E V (gets f : Effect σ ε φ α) (gets g : Effect τ ε' φ β) :=
  fun s t hs => .ok (h s t hs) hs

/-- Changes that keep states related. -/
theorem alike_modify {f : σ → σ} {g : τ → τ} (h : ∀ s t, R s t → R (f s) (g t)) :
    Alike R E Eq (modify f : Effect σ ε φ Unit) (modify g : Effect τ ε' φ Unit) :=
  fun s t hs => .ok rfl (h s t hs)

/-- Continuations are compared on related values only. -/
theorem Alike.bind {W : α' → β' → Prop} {p : Effect σ ε φ α} {q : Effect τ ε' φ β} {k : α → Effect σ ε φ α'}
    {l : β → Effect τ ε' φ β'} (h : Alike R E V p q) (hk : ∀ a b, V a b → Alike R E W (k a) (l b)) :
    Alike R E W (p >>= k) (q >>= l) := by
  intro s t hs
  show (Effect.bind p k s).Alike R E W (Effect.bind q l t)
  unfold Effect.bind
  have hrun := h s t hs
  generalize p s = o at hrun ⊢
  generalize q t = o' at hrun ⊢
  cases hrun with
  | ok hv hs' => exact hk _ _ hv _ _ hs'
  | throw he hs' => exact .throw he hs'
  | fault hs' => exact .fault hs'

/-- Handlers are compared on related exceptions only. -/
theorem Alike.tryCatch {ε₁ ε₂ : Type} {E' : ε₁ → ε₂ → Prop} {p : Effect σ ε φ α} {q : Effect τ ε' φ β}
    {handler : ε → Effect σ ε₁ φ α} {handler' : ε' → Effect τ ε₂ φ β} (h : Alike R E V p q)
    (hhandler : ∀ e e', E e e' → Alike R E' V (handler e) (handler' e')) :
    Alike R E' V (p.tryCatch handler) (q.tryCatch handler') := by
  intro s t hs
  unfold Effect.tryCatch
  have hrun := h s t hs
  generalize p s = o at hrun ⊢
  generalize q t = o' at hrun ⊢
  cases hrun with
  | ok hv hs' => exact .ok hv hs'
  | throw he hs' => exact hhandler _ _ he _ _ hs'
  | fault hs' => exact .fault hs'

/-- Entering and leaving on both sides. -/
theorem Alike.within {R' : σ → τ → Prop} {enter : σ → σ} {enter' : τ → τ} {leave : σ → σ → σ} {leave' : τ → τ → τ}
    {p : Effect σ ε φ α} {q : Effect τ ε' φ β} (h : Alike R' E V p q) (henter : ∀ s t, R s t → R' (enter s) (enter' t))
    (hleave : ∀ s t s' t', R s t → R' s' t' → R (leave s s') (leave' t t')) :
    Alike R E V (p.within enter leave) (q.within enter' leave') := by
  intro s t hs
  rw [within_run, within_run]
  have hrun := h _ _ (henter s t hs)
  generalize p (enter s) = o at hrun ⊢
  generalize q (enter' t) = o' at hrun ⊢
  cases hrun with
  | ok hv hs' => exact .ok hv (hleave _ _ _ _ hs hs')
  | throw he hs' => exact .throw he (hleave _ _ _ _ hs hs')
  | fault hs' => exact .fault (hleave _ _ _ _ hs hs')

/-- Branches are compared when the conditions agree. -/
theorem Alike.ite {c c' : Prop} [Decidable c] [Decidable c'] {p p' : Effect σ ε φ α} {q q' : Effect τ ε' φ β}
    (hc : c ↔ c') (h : Alike R E V p q) (h' : Alike R E V p' q') :
    Alike R E V (if c then p else p') (if c' then q else q') := by
  by_cases hcond : c
  · rwa [if_pos hcond, if_pos (hc.mp hcond)]
  · rwa [if_neg hcond, if_neg (fun hcond' => hcond (hc.mpr hcond'))]

end

end Effect

end ZeroTrust
