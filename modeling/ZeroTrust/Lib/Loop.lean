import Mathlib.Algebra.Order.Ring.Int

/-!
# While loops with a variant

A loop is a step function together with a measure that every continuing step decreases.
The measure is a field, so a loop that could run forever cannot be built, and `Loop.run`
is total and evaluates by structural recursion. `Loop.run_eq` is the only unfolding rule
the users need; `Loop.run_induction` packages the invariant argument.

Loops whose termination is itself in question are run with `iterate`, which reports an
exhausted budget instead of a result.
-/

namespace ZeroTrust

universe u v

/-- A loop body that either continues with a new state or leaves with a result. -/
structure Loop (σ : Type u) (ρ : Type v) where
  step : σ → σ ⊕ ρ
  variant : σ → ℕ
  decreases : ∀ s s', step s = .inl s' → variant s' < variant s

namespace Loop

variable {σ : Type u} {ρ : Type v}

/-- Run with a budget that is known to suffice. -/
def runWithin (l : Loop σ ρ) : (budget : ℕ) → (s : σ) → l.variant s < budget → ρ
  | 0, _, h => absurd h (Nat.not_lt_zero _)
  | budget + 1, s, h =>
    match hs : l.step s with
    | .inr r => r
    | .inl s' => l.runWithin budget s' (by have := l.decreases s s' hs; omega)

/-- Run the loop to its exit. -/
def run (l : Loop σ ρ) (s : σ) : ρ := l.runWithin (l.variant s + 1) s (Nat.lt_succ_self _)

/-- The budget does not influence the result. -/
theorem runWithin_eq (l : Loop σ ρ) (m n : ℕ) (s : σ) (hm : l.variant s < m) (hn : l.variant s < n) :
    l.runWithin m s hm = l.runWithin n s hn := by
  induction m generalizing n s with
  | zero => omega
  | succ m ih =>
    cases n with
    | zero => omega
    | succ n =>
      unfold runWithin
      split
      · rfl
      · exact ih _ _ _ _

/-- One iteration of the loop. -/
theorem run_eq (l : Loop σ ρ) (s : σ) :
    l.run s = match l.step s with
      | .inr r => r
      | .inl s' => l.run s' := by
  unfold run
  rw [runWithin]
  split
  · next r h => simp only [h]
  · next s' h =>
    simp only [h]
    exact l.runWithin_eq _ _ _ _ _

/-- A step that leaves the loop determines the result. -/
theorem run_of_exit (l : Loop σ ρ) {s : σ} {r : ρ} (h : l.step s = .inr r) : l.run s = r := by
  rw [run_eq, h]

/-- A step that continues can be skipped. -/
theorem run_of_continue (l : Loop σ ρ) {s s' : σ} (h : l.step s = .inl s') : l.run s = l.run s' := by
  rw [run_eq, h]

/-- What every step preserves and every exit establishes holds of the result. -/
theorem run_induction (l : Loop σ ρ) (invariant : σ → Prop) (post : ρ → Prop)
    (hcontinue : ∀ s s', invariant s → l.step s = .inl s' → invariant s')
    (hexit : ∀ s r, invariant s → l.step s = .inr r → post r)
    (s : σ) (hs : invariant s) : post (l.run s) := by
  induction hn : l.variant s using Nat.strongRecOn generalizing s with
  | ind n ih =>
    cases h : l.step s with
    | inr r => rw [l.run_of_exit h]; exact hexit s r hs h
    | inl s' =>
      rw [l.run_of_continue h]
      exact ih _ (hn ▸ l.decreases s s' h) s' (hcontinue s s' hs h) rfl

end Loop

section Iterate

variable {σ : Type u} {ρ : Type v}

/-- Run a loop body at most `budget` times; `none` is an exhausted budget. -/
def iterate (step : σ → σ ⊕ ρ) : (budget : ℕ) → σ → Option ρ
  | 0, _ => none
  | budget + 1, s =>
    match step s with
    | .inr r => some r
    | .inl s' => iterate step budget s'

/-- A loop with a variant needs no more steps than its variant says. -/
theorem iterate_eq_run (l : Loop σ ρ) {budget : ℕ} {s : σ} (h : l.variant s < budget) :
    iterate l.step budget s = some (l.run s) := by
  induction budget generalizing s with
  | zero => omega
  | succ budget ih =>
    rw [iterate]
    cases hs : l.step s with
    | inr r => rw [l.run_of_exit hs]
    | inl s' =>
      have hdecreases := l.decreases s s' hs
      rw [l.run_of_continue hs]
      exact ih (by omega)

end Iterate

end ZeroTrust
