import ZeroTrust.Scan.DpkgOrder
import Mathlib.Data.List.TakeWhile
import Mathlib.Logic.Relation

/-!
# Progress of the package comparison

A zero byte ends a non-digit run like the end of the text does, but the outer loop still waits for the
end of the text. An iteration sees nothing of what stands behind the first zero byte of either side, so
the loop hangs exactly when the texts before it are equivalent.
-/

namespace ZeroTrust

/-- Nothing, or text that starts with a zero byte. -/
def NulTail (t : Bytes) : Prop := ∀ c, t.head? = some c → c = 0

/-- The outer loop can get from one pair of cursors to the other. -/
def DpkgReaches : Bytes × Bytes → Bytes × Bytes → Prop :=
  Relation.ReflTransGen fun s s' => dpkgStep s = .inl s'

/-- Every iteration from a reachable pair of cursors that is not the exit returns or moves a cursor on. -/
def DpkgProgresses (a b : Bytes) : Prop :=
  ∀ s, DpkgReaches (a, b) s → s ≠ ([], []) → ∀ s', dpkgStep s = .inl s' →
    s'.1.length + s'.2.length < s.1.length + s.2.length

/-- Every text is its part before the first zero byte and a tail. -/
theorem exists_beforeNul_append (s : Bytes) : ∃ t, s = beforeNul s ++ t ∧ NulTail t := by
  refine ⟨s.dropWhile (· ≠ 0), List.takeWhile_append_dropWhile.symm, fun c hc => ?_⟩
  have hstop := List.head?_dropWhile_not (fun c : Byte => decide (c ≠ 0)) s
  rw [hc] at hstop
  simpa using hstop

/-- A text without a zero byte is all before it. -/
theorem nulFree_iff_of_append {s t : Bytes} (hs : s = beforeNul s ++ t) (ht : NulTail t) : NulFree s ↔ t = [] := by
  constructor
  · intro hfree
    cases t with
    | nil => rfl
    | cons c t =>
      obtain rfl := ht c rfl
      rw [hs] at hfree
      exact absurd (List.mem_append_right _ List.mem_cons_self) hfree
  · rintro rfl
    rw [hs, List.append_nil]
    exact nulFree_beforeNul s

variable {x y t u : Bytes}

/-- What follows from a zero byte on does not change the head of a run. -/
theorem runHead_append (hx : NulFree x) (ht : NulTail t) : runHead (x ++ t) = runHead x := by
  cases x with
  | cons c x => rfl
  | nil =>
    cases t with
    | nil => rfl
    | cons c t =>
      obtain rfl := ht c rfl
      rfl

/-- It follows what is left of the run too. -/
theorem runAdvance_append (hx : NulFree x) (ht : NulTail t) : runAdvance (x ++ t) = runAdvance x ++ t := by
  unfold runAdvance
  rw [runHead_append hx ht]
  split
  · next h =>
    cases x with
    | nil => exact absurd rfl h
    | cons c x => rfl
  · rfl

/-- A run moves on inside of its text. -/
theorem NulFree.runAdvance (hx : NulFree x) : NulFree (runAdvance x) := by
  unfold ZeroTrust.runAdvance
  split_ifs
  · exact hx.of_sublist (List.tail_sublist x)
  · exact hx

/-- What is dropped is dropped in front of it. -/
theorem dropWhile_append_nulTail {p : Byte → Bool} (hp : p 0 = false) (ht : NulTail t) (x : Bytes) :
    (x ++ t).dropWhile p = x.dropWhile p ++ t := by
  rw [List.dropWhile_append]
  split
  · next hempty =>
    rw [List.isEmpty_iff.mp hempty, List.nil_append]
    cases t with
    | nil => rfl
    | cons c t =>
      obtain rfl := ht c rfl
      rw [List.dropWhile_cons, hp]
      rfl
  · rfl

/-- What is taken is taken in front of it. -/
theorem takeWhile_append_nulTail {p : Byte → Bool} (hp : p 0 = false) (ht : NulTail t) (x : Bytes) :
    (x ++ t).takeWhile p = x.takeWhile p := by
  have hstop : t.takeWhile p = [] := by
    cases t with
    | nil => rfl
    | cons c t =>
      obtain rfl := ht c rfl
      rw [List.takeWhile_cons, hp]
      rfl
  rw [List.takeWhile_append]
  split
  · next hall => rw [hstop, List.append_nil, (List.takeWhile_prefix p).eq_of_length hall]
  · rfl

/-- Equivalent characters are both there or both not. -/
theorem runHead_eq_zero_of_order {a b : Bytes} (h : dpkgCharOrder (runHead a) = dpkgCharOrder (runHead b))
    (ha : runHead a = 0) : runHead b = 0 := by
  by_contra hb
  obtain ⟨hcompare, hne⟩ := compare_dpkgCharOrder_zero hb
  rw [← h, ha] at hcompare
  exact hne (hcompare.symm.trans rfl)

/-- What stands behind the first zero byte of either side. -/
def RunEnd.append (t u : Bytes) : RunEnd → RunEnd
  | .decided verdict => .decided verdict
  | .stopped a b => .stopped (a ++ t) (b ++ u)

/-- It follows what two runs leave. -/
theorem nonDigitRun_append (hx : NulFree x) (hy : NulFree y) (ht : NulTail t) (hu : NulTail u) :
    nonDigitRun.run (x ++ t, y ++ u) = (nonDigitRun.run (x, y)).append t u := by
  induction hn : x.length using Nat.strongRecOn generalizing x y with
  | ind n ih =>
    have hxt := runHead_append hx ht
    have hyu := runHead_append hy hu
    by_cases horder : dpkgCharOrder (runHead x) = dpkgCharOrder (runHead y)
    · by_cases hzero : runHead x = 0
      · have hzero' := runHead_eq_zero_of_order horder hzero
        rw [Loop.run_of_exit _ (nonDigitRun_stop hzero hzero'),
          Loop.run_of_exit _ (nonDigitRun_stop (hxt.trans hzero) (hyu.trans hzero'))]
        rfl
      · have hlt := length_runAdvance_lt hzero
        rw [Loop.run_of_continue _ (nonDigitRun_continue hzero horder),
          Loop.run_of_continue _ (nonDigitRun_continue (hxt ▸ hzero) (hxt ▸ hyu ▸ horder)),
          runAdvance_append hx ht, runAdvance_append hy hu]
        exact ih _ (hn ▸ hlt) hx.runAdvance hy.runAdvance rfl
    · rw [Loop.run_of_exit _ (nonDigitRun_decide horder),
        Loop.run_of_exit _ (nonDigitRun_decide (hxt ▸ hyu ▸ horder)), hxt, hyu]
      rfl

/-- An iteration that has something to read before the zero bytes does what it does without them. -/
theorem dpkgStep_append (hx : NulFree x) (hy : NulFree y) (ht : NulTail t) (hu : NulTail u)
    (hempty : ¬(x = [] ∧ y = [])) :
    dpkgStep (x ++ t, y ++ u) = (dpkgStep (x, y)).map (fun s => (s.1 ++ t, s.2 ++ u)) id := by
  have hopen : ¬(x ++ t = [] ∧ y ++ u = []) := fun h =>
    hempty ⟨(List.append_eq_nil_iff.mp h.1).1, (List.append_eq_nil_iff.mp h.2).1⟩
  have hzeros : ∀ {t : Bytes}, NulTail t → ∀ a : Bytes, (a ++ t).dropWhile (· == 48) = a.dropWhile (· == 48) ++ t :=
    fun ht => dropWhile_append_nulTail rfl ht
  have hdigits : ∀ {t : Bytes}, NulTail t → ∀ a : Bytes, (a ++ t).takeWhile isDigit = a.takeWhile isDigit :=
    fun ht => takeWhile_append_nulTail rfl ht
  simp only [dpkgStep, hopen, hempty, if_false, nonDigitRun_append hx hy ht hu]
  cases nonDigitRun.run (x, y) with
  | decided verdict => rfl
  | stopped a b =>
    have hda := (List.takeWhile_prefix (l := a.dropWhile (· == 48)) isDigit).length_le
    have hdb := (List.takeWhile_prefix (l := b.dropWhile (· == 48)) isDigit).length_le
    simp only [RunEnd.append, hzeros ht, hzeros hu, hdigits ht, hdigits hu]
    by_cases hsame : ((a.dropWhile (· == 48)).takeWhile isDigit).length =
        ((b.dropWhile (· == 48)).takeWhile isDigit).length
    · rw [if_neg (not_not.mpr hsame), if_neg (not_not.mpr hsame), List.take_append_of_le_length hda,
        List.take_append_of_le_length (hsame ▸ hdb), List.drop_append_of_le_length hda,
        List.drop_append_of_le_length hdb]
      split <;> rfl
    · rw [if_pos hsame, if_pos hsame]
      rfl

/-- At two zero bytes, or at one and the end of the other text, an iteration changes nothing. -/
theorem dpkgStep_nulTail (ht : NulTail t) (hu : NulTail u) (hopen : (t, u) ≠ ([], [])) :
    dpkgStep (t, u) = .inl (t, u) := by
  have hempty : ¬(t = [] ∧ u = []) := fun h => hopen (by rw [h.1, h.2])
  have hhead : ∀ {t : Bytes}, NulTail t → runHead t = 0 := fun ht => runHead_append List.not_mem_nil ht
  have hdrop : ∀ {t : Bytes}, NulTail t → t.dropWhile (· == 48) = t := fun ht =>
    dropWhile_append_nulTail rfl ht []
  have htake : ∀ {t : Bytes}, NulTail t → t.takeWhile isDigit = [] := fun ht =>
    takeWhile_append_nulTail rfl ht []
  simp only [dpkgStep, hempty, if_false, Loop.run_of_exit _ (nonDigitRun_stop (hhead ht) (hhead hu)), hdrop ht,
    hdrop hu, htake ht, htake hu]
  rfl

/-- From a verdict there is nowhere to go. -/
theorem progresses_of_verdict {a b : Bytes} {verdict : ℤ} (h : dpkgStep (a, b) = .inr verdict) :
    DpkgProgresses a b := by
  intro s hreach hopen s' hstep
  obtain rfl | ⟨mid, hfirst, -⟩ := hreach.cases_head
  · rw [h] at hstep
    cases hstep
  · rw [h] at hfirst
    cases hfirst

/-- An iteration that moves on leaves the question to the rest of the text. -/
theorem progresses_of_continue {a b a' b' : Bytes} (h : dpkgStep (a, b) = .inl (a', b'))
    (hshorter : a'.length + b'.length < a.length + b.length) :
    DpkgProgresses a b ↔ DpkgProgresses a' b' := by
  constructor
  · intro hprogress s hreach
    exact hprogress s (hreach.head h)
  · intro hprogress s hreach hopen s' hstep
    obtain rfl | ⟨mid, hfirst, hrest⟩ := hreach.cases_head
    · rw [h] at hstep
      cases hstep
      exact hshorter
    · rw [h] at hfirst
      cases hfirst
      exact hprogress s hrest hopen s' hstep

/-- An iteration that changes nothing never ends. -/
theorem not_progresses_of_stuck {a b : Bytes} (hopen : (a, b) ≠ ([], [])) (h : dpkgStep (a, b) = .inl (a, b)) :
    ¬DpkgProgresses a b :=
  fun hprogress => absurd (hprogress (a, b) .refl hopen (a, b) h) (lt_irrefl _)

/-- A step that leads back runs out of any budget. -/
theorem iterate_of_stuck {a b : Bytes} (h : dpkgStep (a, b) = .inl (a, b)) (budget : ℕ) :
    iterate dpkgStep budget (a, b) = none := by
  induction budget with
  | zero => rfl
  | succ budget ih =>
    rw [iterate, h]
    exact ih

/-- The parts before the zero bytes are not equivalent, or they are everything. -/
def Decides (x y t u : Bytes) : Prop := (t = [] ∧ u = []) ∨ policyCompare x y ≠ .eq

/-- What one iteration means for the whole comparison: it is stuck, it ends, or it moves on. -/
theorem dpkgStep_cases (hx : NulFree x) (hy : NulFree y) (ht : NulTail t) (hu : NulTail u) :
    ((t, u) ≠ ([], []) ∧ policyCompare x y = .eq ∧ dpkgStep (x ++ t, y ++ u) = .inl (x ++ t, y ++ u) ∧
        (x, y) = ([], [])) ∨
      (dpkgStep (x ++ t, y ++ u) = .inr (orderingSign (policyCompare x y)) ∧ Decides x y t u) ∨
      dpkgStep (x ++ t, y ++ u) = .inl (policyRest x ++ t, policyRest y ++ u) ∧
        (policyRest x).length + (policyRest y).length < x.length + y.length ∧
        policyCompare x y = policyCompare (policyRest x) (policyRest y) := by
  by_cases hempty : x = [] ∧ y = []
  · obtain ⟨rfl, rfl⟩ := hempty
    have hequal : policyCompare [] [] = .eq := by simp [policyCompare]
    by_cases hopen : (t, u) = ([], [])
    · cases hopen
      refine .inr (.inl ⟨?_, .inl ⟨rfl, rfl⟩⟩)
      rw [hequal]
      rfl
    · exact .inl ⟨hopen, hequal, dpkgStep_nulTail ht hu hopen, rfl⟩
  · right
    rw [dpkgStep_append hx hy ht hu hempty, dpkgStep_eq hx hy hempty, policyCompare_eq_then x y, Decides,
      policyCompare_eq_then x y]
    by_cases hpart : policyComparePart (policyPart x) (policyPart y) = .eq
    · rw [hpart]
      exact .inr ⟨rfl, length_policyRest_lt_of_open hempty, rfl⟩
    · rw [stepOf_of_ne_eq hpart, then_of_ne_eq hpart]
      exact .inl ⟨rfl, .inr hpart⟩

/-- Progress with what follows is decided by the texts in front of it. -/
theorem progresses_append_iff (hx : NulFree x) (hy : NulFree y) (ht : NulTail t) (hu : NulTail u) :
    DpkgProgresses (x ++ t) (y ++ u) ↔ Decides x y t u := by
  induction hn : x.length + y.length using Nat.strongRecOn generalizing x y with
  | ind n ih =>
    obtain ⟨hopen, hequal, hstuck, hempty⟩ | ⟨hverdict, hdecides⟩ | ⟨hmoves, hshorter, hrest⟩ :=
      dpkgStep_cases hx hy ht hu
    · cases hempty
      refine iff_of_false (not_progresses_of_stuck hopen hstuck) ?_
      rintro (hnone | hne)
      · exact hopen (by rw [hnone.1, hnone.2])
      · exact hne hequal
    · exact iff_of_true (progresses_of_verdict hverdict) hdecides
    · have hless : (policyRest x ++ t).length + (policyRest y ++ u).length < (x ++ t).length + (y ++ u).length := by
        simp only [List.length_append]
        omega
      rw [progresses_of_continue hmoves hless, ih _ (hn ▸ hshorter) hx.policyRest hy.policyRest rfl, Decides, Decides,
        hrest]

/-- The loop comes to the verdict of the policy order on the parts before the zero bytes, or to none. -/
theorem iterate_append (hx : NulFree x) (hy : NulFree y) (ht : NulTail t) (hu : NulTail u) {budget : ℕ}
    (h : x.length + y.length < budget) :
    (Decides x y t u → iterate dpkgStep budget (x ++ t, y ++ u) = some (orderingSign (policyCompare x y))) ∧
      (¬Decides x y t u → iterate dpkgStep budget (x ++ t, y ++ u) = none) := by
  induction budget generalizing x y with
  | zero => exact absurd h (Nat.not_lt_zero _)
  | succ budget ih =>
    obtain ⟨hopen, hequal, hstuck, hempty⟩ | ⟨hverdict, hdecides⟩ | ⟨hmoves, hshorter, hrest⟩ :=
      dpkgStep_cases hx hy ht hu
    · rw [iterate_of_stuck hstuck]
      refine ⟨?_, fun _ => rfl⟩
      rintro (hnone | hne)
      · exact absurd (by rw [hnone.1, hnone.2]) hopen
      · exact absurd hequal hne
    · rw [iterate, hverdict]
      exact ⟨fun _ => rfl, fun hnot => absurd hdecides hnot⟩
    · rw [iterate, hmoves, Decides, hrest]
      exact ih hx.policyRest hy.policyRest (by omega)

/-- On any two texts the comparison looks at the parts before the first zero bytes. -/
theorem dpkgCompareStr_cases (a b : Bytes) :
    ((NulFree a ∧ NulFree b) ∨ policyCompare (beforeNul a) (beforeNul b) ≠ .eq →
        dpkgCompareStr a b = some (orderingSign (policyCompare (beforeNul a) (beforeNul b)))) ∧
      (¬((NulFree a ∧ NulFree b) ∨ policyCompare (beforeNul a) (beforeNul b) ≠ .eq) → dpkgCompareStr a b = none) := by
  obtain ⟨t, ha, ht⟩ := exists_beforeNul_append a
  obtain ⟨u, hb, hu⟩ := exists_beforeNul_append b
  have hlength : (beforeNul a).length + (beforeNul b).length < a.length + b.length + 1 := by
    have hla := (List.takeWhile_prefix (l := a) (· ≠ 0)).length_le
    have hlb := (List.takeWhile_prefix (l := b) (· ≠ 0)).length_le
    unfold beforeNul
    omega
  have hloop := iterate_append (nulFree_beforeNul a) (nulFree_beforeNul b) ht hu hlength
  rwa [← ha, ← hb, Decides, ← nulFree_iff_of_append ha ht, ← nulFree_iff_of_append hb hu] at hloop

/-- The comparison ends, and each of its iterations makes progress, exactly when neither text has a zero
byte or the texts before the first zero bytes are not equivalent. -/
theorem dpkg_progress_iff (a b : Bytes) :
    (DpkgProgresses a b ↔ (NulFree a ∧ NulFree b) ∨ policyCompare (beforeNul a) (beforeNul b) ≠ .eq) ∧
      ((dpkgCompareStr a b).isSome ↔ (NulFree a ∧ NulFree b) ∨ policyCompare (beforeNul a) (beforeNul b) ≠ .eq) := by
  obtain ⟨t, ha, ht⟩ := exists_beforeNul_append a
  obtain ⟨u, hb, hu⟩ := exists_beforeNul_append b
  have hprogress := progresses_append_iff (nulFree_beforeNul a) (nulFree_beforeNul b) ht hu
  rw [← ha, ← hb, Decides, ← nulFree_iff_of_append ha ht, ← nulFree_iff_of_append hb hu] at hprogress
  refine ⟨hprogress, ?_⟩
  obtain ⟨hends, hhangs⟩ := dpkgCompareStr_cases a b
  constructor
  · intro hsome
    by_contra hnot
    rw [hhangs hnot] at hsome
    cases hsome
  · intro hdecides
    rw [hends hdecides]
    rfl

/-- A version that was cut out of a banner with a zero byte hangs at its own fix. -/
theorem dpkg_stuck_at_nul :
    ¬DpkgProgresses (str "9.2p1") (str "9.2p1" ++ [0]) ∧ dpkgCompareStr (str "9.2p1") (str "9.2p1" ++ [0]) = none := by
  have hfree : NulFree (str "9.2p1") := by decide
  have hnil : NulTail [] := fun c hc => nomatch hc
  have hzero : NulTail [0] := fun c hc => (Option.some.inj hc).symm
  have hstuck : ¬Decides (str "9.2p1") (str "9.2p1") [] [0] := by
    rintro (⟨-, hnone⟩ | hne)
    · cases hnone
    · exact hne Std.ReflCmp.compare_self
  constructor
  · exact (progresses_append_iff hfree hfree hnil hzero).not.mpr hstuck
  · decide

end ZeroTrust
