import Mathlib.Logic.Function.Basic
import Mathlib.Order.Lattice

/-!
# A maximum kept by compare-and-swap

Clients raise a shared value: each reads it and, while its own value is greater, tries to exchange what it has
read for its own value. An exchange fails when the shared value has changed meanwhile, and may fail for no
reason; the client then goes on with the value of that moment. The shared value never decreases, and a client
that has come to its end leaves it at its own value at least.
-/

namespace ZeroTrust

universe u v

open Function (update)

/-- Where a client stands. -/
inductive MaxStage (α : Type u)
  | idle
  | trying (value expected : α)
  | settled (value : α) (written : Bool)
deriving DecidableEq

/-- The value that a client proposes. -/
def MaxStage.value? {α : Type u} : MaxStage α → Option α
  | .idle => none
  | .trying value _ | .settled value _ => some value

/-- The shared value and the clients. -/
structure AtomicMax (ι : Type v) (α : Type u) where
  value : α
  clients : ι → MaxStage α

namespace AtomicMax

variable {ι : Type v} {α : Type u} [DecidableEq ι] [LinearOrder α]

/-- A client reads the shared value, to compare its own with it. -/
def load (r : AtomicMax ι α) (i : ι) (value : α) : AtomicMax ι α :=
  { r with clients := update r.clients i (.trying value r.value) }

/-- One round of the loop of a client. -/
def attempt (r : AtomicMax ι α) (i : ι) (spurious : Bool) : AtomicMax ι α :=
  match r.clients i with
  | .trying value expected =>
    if expected < value then
      if r.value = expected ∧ spurious = false then ⟨value, update r.clients i (.settled value true)⟩
      else { r with clients := update r.clients i (.trying value r.value) }
    else { r with clients := update r.clients i (.settled value false) }
  | _ => r

/-- What clients have read was the shared value once, and what they have settled was reached. -/
structure Consistent (r : AtomicMax ι α) : Prop where
  expected : ∀ i value expected, r.clients i = .trying value expected → expected ≤ r.value
  settled : ∀ i value written, r.clients i = .settled value written → value ≤ r.value

variable {r : AtomicMax ι α} {i : ι} {value expected : α}

/-- What a round does: the client writes its value, reads again, or finds that it has nothing to do. -/
theorem attempt_cases (h : r.clients i = .trying value expected) (spurious : Bool) :
    (r.value = expected ∧ expected < value ∧
      r.attempt i spurious = ⟨value, update r.clients i (.settled value true)⟩) ∨
    r.attempt i spurious = { r with clients := update r.clients i (.trying value r.value) } ∨
    (value ≤ expected ∧ r.attempt i spurious = { r with clients := update r.clients i (.settled value false) }) := by
  unfold attempt
  rw [h]
  dsimp only
  split_ifs with hless hsame
  · exact .inl ⟨hsame.1, hless, rfl⟩
  · exact .inr (.inl rfl)
  · exact .inr (.inr ⟨not_lt.mp hless, rfl⟩)

/-- The shared value never decreases. -/
theorem le_attempt (h : r.clients i = .trying value expected) (spurious : Bool) :
    r.value ≤ (r.attempt i spurious).value := by
  rcases attempt_cases h spurious with ⟨hsame, hless, heq⟩ | heq | ⟨-, heq⟩
  · rw [heq, hsame]
    exact hless.le
  · rw [heq]
  · rw [heq]

/-- It changes to the value of the client at most. -/
theorem attempt_value (h : r.clients i = .trying value expected) (spurious : Bool) :
    (r.attempt i spurious).value = r.value ∨ (r.attempt i spurious).value = value := by
  rcases attempt_cases h spurious with ⟨-, -, heq⟩ | heq | ⟨-, heq⟩
  · exact .inr (by rw [heq])
  · exact .inl (by rw [heq])
  · exact .inl (by rw [heq])

/-- A round is about one client, which keeps its value. -/
theorem attempt_clients (h : r.clients i = .trying value expected) (spurious : Bool) :
    ∃ stage : MaxStage α, stage.value? = some value ∧ (r.attempt i spurious).clients = update r.clients i stage := by
  rcases attempt_cases h spurious with ⟨-, -, heq⟩ | heq | ⟨-, heq⟩
  · exact ⟨.settled value true, rfl, by rw [heq]⟩
  · exact ⟨.trying value r.value, rfl, by rw [heq]⟩
  · exact ⟨.settled value false, rfl, by rw [heq]⟩

namespace Consistent

/-- A new stage of one client, with a shared value that is no smaller. -/
theorem replace (h : r.Consistent) {next : AtomicMax ι α} {stage : MaxStage α} (hvalue : r.value ≤ next.value)
    (hclients : next.clients = update r.clients i stage)
    (htrying : ∀ value expected, stage = .trying value expected → expected ≤ next.value)
    (hsettled : ∀ value written, stage = .settled value written → value ≤ next.value) : next.Consistent := by
  constructor
  · intro j value expected hj
    rw [hclients, Function.update_apply] at hj
    split at hj
    · exact htrying value expected hj
    · exact (h.expected j value expected hj).trans hvalue
  · intro j value written hj
    rw [hclients, Function.update_apply] at hj
    split at hj
    · exact hsettled value written hj
    · exact (h.settled j value written hj).trans hvalue

/-- A load keeps the register consistent. -/
theorem load (h : r.Consistent) (i : ι) (value : α) : (r.load i value).Consistent := by
  refine h.replace le_rfl rfl ?_ ?_
  · rintro _ _ ⟨⟩
    exact le_rfl
  · intro _ _ hstage
    cases hstage

/-- An attempt keeps the register consistent, whether it fails or not. -/
theorem attempt (h : r.Consistent) (hi : r.clients i = .trying value expected) (spurious : Bool) :
    (r.attempt i spurious).Consistent := by
  have hexpected := h.expected i value expected hi
  have hle := le_attempt hi spurious
  rcases attempt_cases hi spurious with ⟨hsame, hless, heq⟩ | heq | ⟨hdone, heq⟩ <;> rw [heq] at hle ⊢
  · refine h.replace hle rfl ?_ ?_
    · intro _ _ hstage
      cases hstage
    · rintro _ _ ⟨⟩
      exact le_rfl
  · refine h.replace hle rfl ?_ ?_
    · rintro _ _ ⟨⟩
      exact le_rfl
    · intro _ _ hstage
      cases hstage
  · refine h.replace hle rfl ?_ ?_
    · intro _ _ hstage
      cases hstage
    · rintro _ _ ⟨⟩
      exact hdone.trans hexpected

end Consistent

end AtomicMax

end ZeroTrust
