import Mathlib.Algebra.Order.Ring.Int
import Mathlib.Data.List.GetD
import Mathlib.Order.Compare
import Mathlib.Order.PiLex

/-!
# Lexicographic comparison with padding

Two lists are compared position by position and the shorter one is continued with a fixed
padding element. When the element comparison is a total preorder so is the padded one:
`paddedCompare` inherits `Std.TransCmp`, which bundles totality and transitivity.
-/

namespace ZeroTrust

open Std (ReflCmp OrientedCmp TransCmp)

universe u v

variable {α : Type u}

/-- Lexicographic comparison in which a missing element counts as `pad`. -/
def paddedCompare (cmp : α → α → Ordering) (pad : α) : List α → List α → Ordering
  | [], bs => bs.foldr (fun b rest => (cmp pad b).then rest) .eq
  | a :: as, bs => (cmp a (bs.headD pad)).then (paddedCompare cmp pad as bs.tail)

section

variable (cmp : α → α → Ordering) (pad : α)

/-- Two ends are equal. -/
@[simp] theorem paddedCompare_nil_nil : paddedCompare cmp pad [] [] = .eq := rfl

/-- The first difference decides. -/
@[simp] theorem paddedCompare_cons_cons (a b : α) (as bs : List α) :
    paddedCompare cmp pad (a :: as) (b :: bs) = (cmp a b).then (paddedCompare cmp pad as bs) := rfl

/-- The rest of the longer sequence is compared with the padding. -/
@[simp] theorem paddedCompare_cons_nil (a : α) (as : List α) :
    paddedCompare cmp pad (a :: as) [] = (cmp a pad).then (paddedCompare cmp pad as []) := rfl

/-- The padding is compared with the rest of the longer sequence. -/
@[simp] theorem paddedCompare_nil_cons (b : α) (bs : List α) :
    paddedCompare cmp pad [] (b :: bs) = (cmp pad b).then (paddedCompare cmp pad [] bs) := rfl

/-- Head and tail of both lists decide, padding included; two empty lists need `cmp` reflexive. -/
theorem paddedCompare_eq_then [ReflCmp cmp] (as bs : List α) :
    paddedCompare cmp pad as bs =
      (cmp (as.headD pad) (bs.headD pad)).then (paddedCompare cmp pad as.tail bs.tail) := by
  cases as <;> cases bs <;> simp [ReflCmp.compare_self]

/-- A padded list equals itself without its padding. -/
@[simp] theorem paddedCompare_self [ReflCmp cmp] (as : List α) : paddedCompare cmp pad as as = .eq := by
  induction as with
  | nil => rfl
  | cons a as ih => simp [ih, ReflCmp.compare_self]

/-- A common beginning is invisible. -/
theorem paddedCompare_append_left [ReflCmp cmp] (cs as bs : List α) :
    paddedCompare cmp pad (cs ++ as) (cs ++ bs) = paddedCompare cmp pad as bs := by
  induction cs with
  | nil => rfl
  | cons c cs ih => simp [ih, ReflCmp.compare_self]

/-- Exchanging the lists reverses the verdict. -/
theorem paddedCompare_swap [OrientedCmp cmp] (as bs : List α) :
    paddedCompare cmp pad as bs = (paddedCompare cmp pad bs as).swap := by
  induction as generalizing bs with
  | nil =>
    induction bs with
    | nil => rfl
    | cons b bs ih =>
      rw [paddedCompare_nil_cons, paddedCompare_cons_nil, Ordering.swap_then, ← ih,
        @OrientedCmp.eq_swap _ cmp _]
  | cons a as ih =>
    cases bs with
    | nil =>
      rw [paddedCompare_nil_cons, paddedCompare_cons_nil, Ordering.swap_then, ← ih,
        @OrientedCmp.eq_swap _ cmp _]
    | cons b bs =>
      rw [paddedCompare_cons_cons, paddedCompare_cons_cons, Ordering.swap_then, ← ih,
        @OrientedCmp.eq_swap _ cmp _]

/-- `then` of two transitive verdicts is transitive. -/
theorem isLE_then_trans {o₁ o₂ o₃ p₁ p₂ p₃ : Ordering}
    (hlt : o₁.isLE → o₂.isLE → o₃.isLE) (heq : o₃ = .eq → o₁.isLE → o₂.isLE → o₁ = .eq ∧ o₂ = .eq)
    (hp : p₁.isLE → p₂.isLE → p₃.isLE) (h₁ : (o₁.then p₁).isLE) (h₂ : (o₂.then p₂).isLE) :
    (o₃.then p₃).isLE := by
  cases o₁ <;> cases o₂ <;> cases o₃ <;> simp_all [Ordering.then, Ordering.isLE]

/-- If `a ≤ b ≤ c` and `a`, `c` are equivalent then all three are. -/
theorem eq_and_eq_of_isLE_of_eq [TransCmp cmp] {a b c : α} (hac : cmp a c = .eq)
    (hab : (cmp a b).isLE) (hbc : (cmp b c).isLE) : cmp a b = .eq ∧ cmp b c = .eq := by
  have hca : (cmp c a).isLE := by
    rw [@OrientedCmp.eq_swap _ cmp _, hac]; rfl
  have hba : (cmp b a).isLE := TransCmp.isLE_trans hbc hca
  have hcb : (cmp c b).isLE := TransCmp.isLE_trans hca hab
  exact ⟨OrientedCmp.isLE_antisymm hab hba, OrientedCmp.isLE_antisymm hbc hcb⟩

/-- The padded order is transitive. -/
theorem paddedCompare_isLE_trans [TransCmp cmp] {as bs cs : List α}
    (hab : (paddedCompare cmp pad as bs).isLE) (hbc : (paddedCompare cmp pad bs cs).isLE) :
    (paddedCompare cmp pad as cs).isLE := by
  induction hn : as.length + bs.length + cs.length using Nat.strongRecOn generalizing as bs cs with
  | ind n ih =>
    by_cases hempty : as = [] ∧ bs = [] ∧ cs = []
    · obtain ⟨rfl, rfl, rfl⟩ := hempty
      rfl
    · rw [paddedCompare_eq_then] at hab hbc ⊢
      refine isLE_then_trans (fun h₁ h₂ => TransCmp.isLE_trans h₁ h₂)
        (fun h₃ h₁ h₂ => eq_and_eq_of_isLE_of_eq cmp h₃ h₁ h₂) (fun h₁ h₂ => ?_) hab hbc
      refine ih _ ?_ h₁ h₂ rfl
      cases as <;> cases bs <;> cases cs <;> simp_all <;> omega

instance [TransCmp cmp] : TransCmp (paddedCompare cmp pad) where
  eq_swap := paddedCompare_swap cmp pad _ _
  isLE_trans := paddedCompare_isLE_trans cmp pad

end

section

variable (pad : α)

/-- A list continued with padding. -/
def padded (as : List α) (i : ℕ) : α := as.getD i pad

/-- The first place of a padded sequence. -/
@[simp] theorem padded_zero (as : List α) : padded pad as 0 = as.headD pad := by
  cases as <;> rfl

/-- The other places are those of the tail. -/
@[simp] theorem padded_succ (as : List α) (i : ℕ) : padded pad as (i + 1) = padded pad as.tail i := by
  cases as <;> rfl

/-- Two lists are continued in the same way exactly if they differ in padding at their ends only. -/
theorem padded_eq_padded_iff {as bs : List α} :
    padded pad as = padded pad bs ↔ ∃ k l, as ++ List.replicate k pad = bs ++ List.replicate l pad := by
  have hpadding : ∀ (cs : List α) (k : ℕ), padded pad (cs ++ List.replicate k pad) = padded pad cs := by
    intro cs k
    funext i
    rw [padded, padded, List.getD_eq_getElem?_getD, List.getD_eq_getElem?_getD, List.getElem?_append]
    split_ifs with hi
    · rfl
    · rw [List.getElem?_replicate, List.getElem?_eq_none (Nat.le_of_not_lt hi)]
      split_ifs <;> rfl
  constructor
  · intro h
    refine ⟨bs.length, as.length, List.ext_getElem (by simp [Nat.add_comm]) ?_⟩
    intro i hi hi'
    have hi₁ := congrFun (hpadding as bs.length) i
    have hi₂ := congrFun (hpadding bs as.length) i
    rw [padded, List.getD_eq_getElem _ _ hi] at hi₁
    rw [padded, List.getD_eq_getElem _ _ hi'] at hi₂
    rw [hi₁, hi₂, h]
  · rintro ⟨k, l, h⟩
    rw [← hpadding as k, h, hpadding]

variable [LinearOrder α]

/-- The first place decides, or the places behind it. -/
theorem toLex_lt_iff {f g : ℕ → α} :
    toLex f < toLex g ↔ f 0 < g 0 ∨ f 0 = g 0 ∧ toLex (fun i => f (i + 1)) < toLex (fun i => g (i + 1)) := by
  constructor
  · rintro ⟨i, hbefore, hi⟩
    cases i with
    | zero => exact .inl hi
    | succ i => exact .inr ⟨hbefore 0 i.succ_pos, i, fun j hj => hbefore (j + 1) (Nat.succ_lt_succ hj), hi⟩
  · rintro (h | ⟨h, i, hbefore, hi⟩)
    · exact ⟨0, fun j hj => absurd hj j.not_lt_zero, h⟩
    · refine ⟨i + 1, fun j hj => ?_, hi⟩
      cases j with
      | zero => exact h
      | succ j => exact hbefore j (Nat.lt_of_succ_lt_succ hj)

/-- The padded comparison is the lexicographic order of the padded sequences. -/
theorem paddedCompare_eq_lt_iff {as bs : List α} :
    paddedCompare compare pad as bs = .lt ↔ toLex (padded pad as) < toLex (padded pad bs) := by
  induction hn : as.length + bs.length using Nat.strongRecOn generalizing as bs with
  | ind n ih =>
    by_cases hempty : as = [] ∧ bs = []
    · obtain ⟨rfl, rfl⟩ := hempty
      exact iff_of_false (by simp) (lt_irrefl (toLex (padded pad [])))
    · rw [paddedCompare_eq_then, toLex_lt_iff, padded_zero, padded_zero, Ordering.then_eq_lt, compare_lt_iff_lt,
        compare_eq_iff_eq]
      simp only [padded_succ]
      rw [ih _ _ rfl]
      subst hn
      cases as <;> cases bs <;> grind

/-- And its reflexive version. -/
theorem isLE_paddedCompare_iff {as bs : List α} :
    (paddedCompare compare pad as bs).isLE ↔ toLex (padded pad as) ≤ toLex (padded pad bs) := by
  have hle : toLex (padded pad as) ≤ toLex (padded pad bs) ↔ ¬toLex (padded pad bs) < toLex (padded pad as) :=
    not_lt.symm
  rw [hle, ← paddedCompare_eq_lt_iff, paddedCompare_swap]
  cases paddedCompare compare pad bs as <;> simp

/-- Lists are equivalent exactly if they are continued in the same way. -/
theorem paddedCompare_eq_eq_iff {as bs : List α} :
    paddedCompare compare pad as bs = .eq ↔ padded pad as = padded pad bs := by
  constructor
  · intro h
    apply toLex.injective
    apply le_antisymm
    · rw [← isLE_paddedCompare_iff, h]
      rfl
    · rw [← isLE_paddedCompare_iff, paddedCompare_swap, h]
      rfl
  · intro h
    apply OrientedCmp.isLE_antisymm
    · exact (isLE_paddedCompare_iff pad).mpr (h ▸ le_refl _)
    · exact (isLE_paddedCompare_iff pad).mpr (h ▸ le_refl _)

end

/-- Compare the images under `f`. -/
def compareVia {β : Type v} (cmp : β → β → Ordering) (f : α → β) (a b : α) : Ordering :=
  cmp (f a) (f b)

instance {β : Type v} (cmp : β → β → Ordering) [TransCmp cmp] (f : α → β) :
    TransCmp (compareVia cmp f) where
  eq_swap {a b} := @OrientedCmp.eq_swap _ cmp _ (f a) (f b)
  isLE_trans {a b c} := @TransCmp.isLE_trans _ cmp _ (f a) (f b) (f c)

/-- The sign of a verdict, as C comparison functions return it. -/
def orderingSign : Ordering → ℤ
  | .lt => -1
  | .eq => 0
  | .gt => 1

/-- The swapped order has the opposite sign. -/
@[simp] theorem orderingSign_swap (o : Ordering) : orderingSign o.swap = -orderingSign o := by
  cases o <;> rfl

/-- The sign is zero for equality only. -/
@[simp] theorem orderingSign_eq_zero {o : Ordering} : orderingSign o = 0 ↔ o = .eq := by
  cases o <;> simp [orderingSign]

/-- The sign is not positive up to equality. -/
@[simp] theorem orderingSign_le_zero {o : Ordering} : orderingSign o ≤ 0 ↔ o.isLE := by
  cases o <;> simp [orderingSign]

/-- A partial comparison function with signed verdicts that totally preorders `P`. -/
structure TotallyPreorders (cmp : α → α → Option ℤ) (P : α → Prop) : Prop where
  refl : ∀ a, P a → cmp a a = some 0
  antisymm : ∀ a b, P a → P b → ∃ x, cmp a b = some x ∧ cmp b a = some (-x)
  trans : ∀ a b c, P a → P b → P c → ∀ x y z, cmp a b = some x → cmp b c = some y →
    cmp a c = some z → x ≤ 0 → y ≤ 0 → z ≤ 0

/-- A comparison function that returns the sign of a total preorder is one. -/
theorem totallyPreorders_of_sign {cmp : α → α → Option ℤ} {P : α → Prop}
    (order : α → α → Ordering) [TransCmp order]
    (h : ∀ a b, P a → P b → cmp a b = some (orderingSign (order a b))) : TotallyPreorders cmp P where
  refl a ha := by
    rw [h a a ha ha, @ReflCmp.compare_self _ order _]
    rfl
  antisymm a b ha hb := by
    refine ⟨_, h a b ha hb, ?_⟩
    rw [h b a hb ha, @OrientedCmp.eq_swap _ order _, orderingSign_swap]
  trans a b c ha hb hc x y z hx hy hz hx₀ hy₀ := by
    rw [h a b ha hb, Option.some_inj] at hx
    rw [h b c hb hc, Option.some_inj] at hy
    rw [h a c ha hc, Option.some_inj] at hz
    subst hx hy hz
    rw [orderingSign_le_zero] at hx₀ hy₀ ⊢
    exact TransCmp.isLE_trans hx₀ hy₀

end ZeroTrust
