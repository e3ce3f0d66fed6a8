import Mathlib.Data.List.Forall2
import Mathlib.Data.List.Nodup
import Mathlib.Data.Option.Basic

/-!
# Independent components

A state made of components, one for each key, and partial functions on it. `Splits` says that a
function acts on every component by itself: it is defined when all the actions on the components
are, and then each component of the result is the action on that component. Loops inherit this, both
loops over the keys whose body touches one component and loops over anything else. General rules for
partial loops come first: an invariant, what a loop that leaves its state alone has skipped, and a
simulation by a loop that fails together.
-/

namespace ZeroTrust

/-- An invariant of the body is one of the loop. -/
theorem foldlM_invariant {σ α : Type} {f : σ → α → Option σ} {P : σ → Prop} {l : List α}
    (h : ∀ s, ∀ a ∈ l, ∀ s', P s → f s a = some s' → P s') {s s' : σ} (hs : P s)
    (hl : l.foldlM f s = some s') : P s' := by
  induction l generalizing s with
  | nil =>
    cases hl
    exact hs
  | cons a l ih =>
    rw [List.foldlM_cons] at hl
    obtain ⟨s₁, hfirst, hrest⟩ := Option.bind_eq_some_iff.mp hl
    exact ih (fun s b hb => h s b (List.mem_cons_of_mem a hb)) (h s a (List.mem_cons_self ..) s₁ hs hfirst) hrest

/-- A loop whose body leaves the state alone leaves it alone. -/
theorem foldlM_fixed {σ α : Type} {f : σ → α → Option σ} {l : List α} {s : σ} (h : ∀ a ∈ l, f s a = some s) :
    l.foldlM f s = some s := by
  induction l with
  | nil => rfl
  | cons a l ih =>
    obtain ⟨hfirst, hrest⟩ := List.forall_mem_cons.mp h
    rw [List.foldlM_cons, hfirst]
    exact ih hrest

/-- A loop that has not grown its state was idle: it has skipped every step that makes the state grow. -/
theorem foldlM_idle {σ α : Type} {f : σ → α → Option σ} {m : σ → ℕ} {p : σ → α → Bool}
    (hidle : ∀ s a, p s a = false → f s a = some s)
    (hgrow : ∀ s a s', p s a = true → f s a = some s' → m s < m s') {l : List α} {s s' : σ}
    (hl : l.foldlM f s = some s') (hsize : m s' = m s) : ∀ a ∈ l, p s a = false := by
  induction l with
  | nil => exact List.forall_mem_nil _
  | cons a l ih =>
    rw [List.foldlM_cons] at hl
    cases hp : p s a with
    | false =>
      rw [hidle s a hp] at hl
      exact List.forall_mem_cons.mpr ⟨hp, ih hl⟩
    | true =>
      obtain ⟨s₁, hfirst, hrest⟩ := Option.bind_eq_some_iff.mp hl
      have hle : m s₁ ≤ m s' := by
        refine foldlM_invariant (P := fun u => m s₁ ≤ m u) (fun u b _ u' hu hstep => ?_) (Nat.le_refl _)
          hrest
        cases hb : p u b with
        | false => exact Option.some.inj ((hidle u b hb).symm.trans hstep) ▸ hu
        | true => exact Nat.le_trans hu (Nat.le_of_lt (hgrow u b u' hb hstep))
      have hless := hgrow s a s₁ hp hfirst
      omega

/-- Computations that go on from related results are related, and fail together. -/
theorem rel_bind {σ τ σ' τ' : Type} {R : σ → τ → Prop} {R' : σ' → τ' → Prop} {x : Option σ} {y : Option τ}
    {f : σ → Option σ'} {g : τ → Option τ'} (h : Option.Rel R x y)
    (hfg : ∀ s t, x = some s → y = some t → R s t → Option.Rel R' (f s) (g t)) :
    Option.Rel R' (x.bind f) (y.bind g) := by
  cases h with
  | none => exact .none
  | some hst => exact hfg _ _ rfl rfl hst

/-- What is read off related results in the same way is the same. -/
theorem map_eq_of_rel {σ τ β : Type} {R : σ → τ → Prop} {x : Option σ} {y : Option τ} {f : σ → β} {g : τ → β}
    (h : Option.Rel R x y) (hfg : ∀ s t, x = some s → R s t → f s = g t) : x.map f = y.map g := by
  cases h with
  | none => rfl
  | some hst => exact congrArg some (hfg _ _ rfl hst)

/-- Loops over related lists whose bodies keep a relation keep it, and fail together. -/
theorem rel_foldlM {σ τ α β : Type} {R : σ → τ → Prop} {A : α → β → Prop} {f : σ → α → Option σ}
    {g : τ → β → Option τ} (hstep : ∀ s t a b, R s t → A a b → Option.Rel R (f s a) (g t b)) {xs : List α}
    {ys : List β} (hxs : List.Forall₂ A xs ys) {s : σ} {t : τ} (hs : R s t) :
    Option.Rel R (xs.foldlM f s) (ys.foldlM g t) := by
  induction hxs generalizing s t with
  | nil => exact .some hs
  | @cons a b xs ys ha hxs ih =>
    rw [List.foldlM_cons, List.foldlM_cons]
    exact rel_bind (hstep s t a b hs ha) fun _ _ _ _ hst => ih hst

/-- Two loops over one list. -/
theorem foldlM_rel {σ τ α : Type} {f : σ → α → Option σ} {g : τ → α → Option τ} {R : σ → τ → Prop}
    (h : ∀ s t a, R s t → Option.Rel R (f s a) (g t a)) (l : List α) {s : σ} {t : τ} (hst : R s t) :
    Option.Rel R (l.foldlM f s) (l.foldlM g t) :=
  rel_foldlM (fun s t a _ hst hab => hab ▸ h s t a hst) (List.forall₂_same.mpr fun _ _ => rfl) hst

variable {σ τ κ α : Type} {keys : List κ} {proj : κ → σ → τ}

/-- A partial function acts on each component separately. -/
structure Splits (keys : List κ) (proj : κ → σ → τ) (f : σ → Option σ) (act : κ → τ → Option τ) : Prop where
  of_some : ∀ {s s'}, f s = some s' → ∀ k ∈ keys, act k (proj k s) = some (proj k s')
  of_none : ∀ {s}, f s = none → ∃ k ∈ keys, act k (proj k s) = none

/-- The function is defined exactly when every action is. -/
theorem Splits.isSome_iff {f : σ → Option σ} {act : κ → τ → Option τ} (h : Splits keys proj f act) (s : σ) :
    (f s).isSome ↔ ∀ k ∈ keys, (act k (proj k s)).isSome := by
  cases hf : f s with
  | some s' =>
    refine iff_of_true rfl fun k hk => ?_
    rw [h.of_some hf k hk]
    rfl
  | none =>
    obtain ⟨k, hk, hnone⟩ := h.of_none hf
    refine iff_of_false nofun fun hall => ?_
    have hsome := hall k hk
    rw [hnone] at hsome
    cases hsome

/-- Doing nothing splits. -/
theorem splits_some : Splits keys proj some fun _ t => some t where
  of_some h k _ := by rw [Option.some.inj h]
  of_none h := nomatch h

/-- Two steps that split, one after the other. -/
theorem Splits.bind {f g : σ → Option σ} {act act' : κ → τ → Option τ} (hf : Splits keys proj f act)
    (hg : Splits keys proj g act') : Splits keys proj (fun s => f s >>= g) fun k t => act k t >>= act' k where
  of_some h k hk := by
    obtain ⟨s₁, hfirst, hsecond⟩ := Option.bind_eq_some_iff.mp h
    rw [hf.of_some hfirst k hk]
    exact hg.of_some hsecond k hk
  of_none {s} h := by
    cases hfirst : f s with
    | none =>
      obtain ⟨k, hk, hnone⟩ := hf.of_none hfirst
      exact ⟨k, hk, by rw [hnone]; rfl⟩
    | some s₁ =>
      rw [hfirst] at h
      obtain ⟨k, hk, hnone⟩ := hg.of_none h
      exact ⟨k, hk, by rw [hf.of_some hfirst k hk]; exact hnone⟩

/-- A loop whose bodies act on the components separately does so itself. -/
theorem splits_foldlM {f : σ → α → Option σ} {act : κ → τ → α → Option τ} (l : List α)
    (h : ∀ a ∈ l, Splits keys proj (f · a) fun k t => act k t a) :
    Splits keys proj (fun s => l.foldlM f s) fun k t => l.foldlM (act k) t := by
  induction l with
  | nil => exact splits_some
  | cons a l ih =>
    have hbind := (h a (List.mem_cons_self ..)).bind (ih fun b hb => h b (List.mem_cons_of_mem a hb))
    simpa only [List.foldlM_cons] using hbind

section Keys

variable {f : σ → κ → Option σ} {act : κ → τ → Option τ}

/-- Components of keys outside the loop stay as they are. -/
theorem foldlM_keys_other (hother : ∀ s k s', f s k = some s' → ∀ j, j ≠ k → proj j s' = proj j s)
    {l : List κ} {s s' : σ} (h : l.foldlM f s = some s') {j : κ} (hj : j ∉ l) : proj j s' = proj j s := by
  induction l generalizing s with
  | nil =>
    cases h
    rfl
  | cons k l ih =>
    rw [List.mem_cons, not_or] at hj
    rw [List.foldlM_cons] at h
    obtain ⟨s₁, hfirst, hrest⟩ := Option.bind_eq_some_iff.mp h
    rw [ih hrest hj.2, hother s k s₁ hfirst j hj.1]

/-- A loop over the keys whose body works on the component of its key. -/
theorem splits_keys (hnodup : keys.Nodup) (hself : ∀ s k, (f s k).map (proj k) = act k (proj k s))
    (hother : ∀ s k s', f s k = some s' → ∀ j, j ≠ k → proj j s' = proj j s) :
    Splits keys proj (fun s => keys.foldlM f s) act := by
  induction keys with
  | nil => exact ⟨fun _ k hk => (nomatch hk), fun h => (nomatch h)⟩
  | cons k l ih =>
    obtain ⟨hk, hl⟩ := List.nodup_cons.mp hnodup
    have hsame : ∀ {s s₁}, f s k = some s₁ → ∀ j ∈ l, proj j s₁ = proj j s := fun hfirst j hj =>
      hother _ k _ hfirst j fun hjk => hk (hjk ▸ hj)
    constructor
    · intro s s' h j hj
      obtain ⟨s₁, hfirst, hrest⟩ := Option.bind_eq_some_iff.mp ((List.foldlM_cons ..).symm.trans h)
      rcases List.mem_cons.mp hj with rfl | hj
      · rw [← hself, hfirst, foldlM_keys_other hother hrest hk]
        rfl
      · rw [← hsame hfirst j hj]
        exact (ih hl).of_some hrest j hj
    · intro s h
      replace h : (f s k >>= fun s₁ => l.foldlM f s₁) = none := (List.foldlM_cons ..).symm.trans h
      cases hfirst : f s k with
      | none => exact ⟨k, List.mem_cons_self .., by rw [← hself, hfirst]; rfl⟩
      | some s₁ =>
        rw [hfirst] at h
        obtain ⟨j, hj, hnone⟩ := (ih hl).of_none h
        exact ⟨j, List.mem_cons_of_mem k hj, by rw [← hsame hfirst j hj]; exact hnone⟩

end Keys

end ZeroTrust
