import Mathlib.Data.List.Perm.Basic
import Mathlib.Logic.Function.Basic

/-!
# Interleavings

Threads that are lists of atomic actions are executed in some interleaving. Whatever the schedule, the
executed actions are a permutation of all actions; what depends on the actions up to their order does
not depend on the schedule.
-/

namespace ZeroTrust

universe u v

open Function (update)

variable {ι : Type u} {α : Type v} [DecidableEq ι]

/-- A complete execution: every action is the next one of some thread. -/
inductive Interleaves : (ι → List α) → List α → Prop
  | done {todo : ι → List α} (finished : ∀ k, todo k = []) : Interleaves todo []
  | step {todo : ι → List α} {k : ι} {a : α} {rest trace : List α} (next : todo k = a :: rest)
      (more : Interleaves (update todo k rest) trace) : Interleaves todo (a :: trace)

/-- Taking the next action of a thread takes it out of all actions. -/
theorem flatMap_perm_cons {todo : ι → List α} {k : ι} {a : α} {rest : List α} (next : todo k = a :: rest)
    {ks : List ι} (hnodup : ks.Nodup) (hk : k ∈ ks) :
    (ks.flatMap todo).Perm (a :: ks.flatMap (update todo k rest)) := by
  induction ks with
  | nil => cases hk
  | cons j ks ih =>
    rw [List.nodup_cons] at hnodup
    simp only [List.flatMap_cons]
    by_cases hjk : j = k
    · subst hjk
      have hsame : ks.flatMap (update todo j rest) = ks.flatMap todo := by
        apply List.flatMap_congr
        intro i hi
        rw [Function.update_of_ne]
        exact fun hij => hnodup.1 (hij ▸ hi)
      rw [Function.update_self, hsame, next, List.cons_append]
    · rw [Function.update_of_ne hjk]
      have hmem := (List.mem_cons.mp hk).resolve_left (Ne.symm hjk)
      exact ((ih hnodup.2 hmem).append_left (todo j)).trans List.perm_middle

/-- An execution permutes all actions. -/
theorem Interleaves.perm {todo : ι → List α} {trace : List α} (h : Interleaves todo trace) {ks : List ι}
    (hnodup : ks.Nodup) (hks : ∀ k, k ∉ ks → todo k = []) : trace.Perm (ks.flatMap todo) := by
  induction h with
  | done finished =>
    have hnil : ks.flatMap _ = [] := List.flatMap_eq_nil_iff.mpr fun k _ => finished k
    rw [hnil]
  | @step todo k a rest trace next more ih =>
    have hk : k ∈ ks := by
      by_contra hk
      rw [hks k hk] at next
      cases next
    have hrest : ∀ j, j ∉ ks → update todo k rest j = [] := by
      intro j hj
      rw [Function.update_of_ne]
      · exact hks j hj
      · exact fun hjk => hj (hjk ▸ hk)
    exact ((ih hrest).cons a).trans (flatMap_perm_cons next hnodup hk).symm

/-- Threads can be executed one after the other. -/
theorem interleaves_flatMap {ks : List ι} (hnodup : ks.Nodup) {todo : ι → List α}
    (hks : ∀ k, k ∉ ks → todo k = []) : Interleaves todo (ks.flatMap todo) := by
  induction ks generalizing todo with
  | nil => exact .done fun k => hks k List.not_mem_nil
  | cons j ks ih =>
    rw [List.nodup_cons] at hnodup
    have hthread : ∀ (actions : List α) (todo : ι → List α), todo j = actions →
        (∀ k, k ∉ j :: ks → todo k = []) → Interleaves todo (actions ++ ks.flatMap todo) := by
      intro actions
      induction actions with
      | nil =>
        intro todo hj hks
        apply ih hnodup.2
        intro k hk
        by_cases hkj : k = j
        · rw [hkj, hj]
        · exact hks k (by simp [hkj, hk])
      | cons a actions iha =>
        intro todo hj hks
        have hsame : ks.flatMap todo = ks.flatMap (update todo j actions) := by
          apply List.flatMap_congr
          intro i hi
          rw [Function.update_of_ne]
          exact fun hij => hnodup.1 (hij ▸ hi)
        rw [List.cons_append, hsame]
        apply Interleaves.step hj
        apply iha _ (Function.update_self ..)
        intro k hk
        rw [Function.update_of_ne]
        · exact hks k hk
        · exact fun hkj => hk (hkj ▸ List.mem_cons_self)
    rw [List.flatMap_cons]
    exact hthread _ todo rfl hks

/-- A thread executes several actions in a row. -/
theorem Interleaves.steps {todo : ι → List α} {k : ι} {actions rest trace : List α} (next : todo k = actions ++ rest)
    (more : Interleaves (update todo k rest) trace) : Interleaves todo (actions ++ trace) := by
  induction actions generalizing todo with
  | nil => rwa [← Function.update_eq_self k todo, next]
  | cons a actions ih =>
    apply Interleaves.step next
    apply ih (Function.update_self ..)
    rwa [Function.update_idem]

/-- An execution of large actions is one of the smaller actions that they are made of. -/
theorem Interleaves.flatMap {β : Type*} {todo : ι → List α} {trace : List α} (f : α → List β)
    (h : Interleaves todo trace) : Interleaves (fun k => (todo k).flatMap f) (trace.flatMap f) := by
  induction h with
  | done finished => exact .done fun k => by rw [finished k, List.flatMap_nil]
  | @step todo k a rest trace next more ih =>
    have hnext : (todo k).flatMap f = f a ++ rest.flatMap f := by rw [next, List.flatMap_cons]
    have hmore : update (fun j => (todo j).flatMap f) k (rest.flatMap f) =
        fun j => (update todo k rest j).flatMap f := by
      funext j
      by_cases hj : j = k
      · rw [hj, Function.update_self, Function.update_self]
      · rw [Function.update_of_ne hj, Function.update_of_ne hj]
    rw [List.flatMap_cons]
    exact Interleaves.steps hnext (hmore ▸ ih)

end ZeroTrust
