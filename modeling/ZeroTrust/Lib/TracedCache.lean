import Mathlib.Data.Int.Notation
import Mathlib.Data.List.Basic
import Mathlib.Logic.Function.Basic

/-!
# Caches of what was received

A cache keeps values under keys that are shorter than the requests, with the time at which they were stored. It
is traced when each of its entries is what was received for some request with that key. Replies only get more,
so a traced cache stays traced until something is stored, and storing a reply under its own key keeps it so.
-/

namespace ZeroTrust

universe u v w

open Function (update)

/-- A value and when it was stored. -/
structure Stamped (β : Type w) where
  value : β
  stored : ℕ

/-- The entry is no older than the time to live. -/
def Stamped.Fresh {β : Type w} (entry : Stamped β) (now : ℕ) (ttl : ℤ) : Prop := (now : ℤ) - entry.stored < ttl

instance {β : Type w} (entry : Stamped β) (now : ℕ) (ttl : ℤ) : Decidable (entry.Fresh now ttl) :=
  inferInstanceAs (Decidable ((now : ℤ) - entry.stored < ttl))

section Traced

variable {ρ : Type u} {κ : Type v} {β : Type w} (key : ρ → κ) (entry : ρ → Stamped β)

/-- Every entry was received under its key. -/
def Traced (received : List ρ) (cache : κ → Option (Stamped β)) : Prop :=
  ∀ k e, cache k = some e → ∃ r ∈ received, key r = k ∧ entry r = e

variable {key entry} {received : List ρ} {cache : κ → Option (Stamped β)}

/-- An empty cache needs no trace. -/
theorem traced_empty : Traced key entry received fun _ => none := nofun

/-- What is received later does not matter. -/
theorem Traced.receive (h : Traced key entry received cache) (later : List ρ) :
    Traced key entry (received ++ later) cache := by
  intro k e he
  obtain ⟨r, hr, htraced⟩ := h k e he
  exact ⟨r, List.mem_append_left later hr, htraced⟩

/-- A reply is stored under its key. -/
theorem Traced.store [DecidableEq κ] (h : Traced key entry received cache) {r : ρ} (hr : r ∈ received) :
    Traced key entry received (update cache (key r) (some (entry r))) := by
  intro k e he
  by_cases hk : k = key r
  · rw [hk, Function.update_self] at he
    exact ⟨r, hr, hk.symm, Option.some.inj he⟩
  · rw [Function.update_of_ne hk] at he
    exact h k e he

end Traced

end ZeroTrust
