import ZeroTrust.Lib.AtomicMax
import ZeroTrust.Lib.Runs
import ZeroTrust.Scan.Cidr
import Mathlib.Data.Finset.Card

/-!
# Progress of a full scan

`scan/reporter.cpp`, with the number of items that `main` passes to it. The ticks of a scan come from the
threads of its pools; in a history the atomic operations of any number of ticks are interleaved.
-/

namespace ZeroTrust

open Function (update)

/-- The value of an expression of type `int`; an overflow is undefined. -/
def checkedInt (x : ℤ) : Option ℤ := if -2 ^ 31 ≤ x ∧ x < 2 ^ 31 then some x else none

/-- `total_scans` of `main`; the number of hosts is cast. -/
def totalScans (hosts : ℕ) (startPort endPort : ℤ) : Option ℤ := do
  let difference ← checkedInt (endPort - startPort)
  let portsPerHost ← checkedInt (difference + 1)
  checkedInt ((hosts : ℤ).bmod (2 ^ 32) * portsPerHost)

/-- `build_bar`, of the default width. -/
def buildBar (percent : ℤ) : Bytes :=
  let filled := (30 * percent).tdiv 100
  str "[" ++ (List.range 30).map (fun i : ℕ => if (i : ℤ) < filled then 35 else 32) ++ str "]"

/-- What a tick draws. -/
structure Drawing where
  percent : ℤ
  done : ℤ
  total : ℤ

/-- The text of a drawing. -/
def Drawing.text (d : Drawing) : Bytes :=
  13 :: buildBar d.percent ++ str " " ++ decimalInt d.percent ++ str "%  " ++ decimalInt d.done ++ str "/" ++
    decimalInt d.total

/-- `percent` in `tick`. -/
def percentOf (total done : ℤ) : Option ℤ :=
  if total > 0 then (checkedInt (done * 100)).map (·.tdiv total) else some 100

/-- Where a call of `tick` stands, with its `done`. -/
inductive TickStage
  | absent
  | counted (done : ℤ)
  | overflowed
  | updating (done : ℤ)
  | finished (done : ℤ)
deriving DecidableEq

/-- `CliReporter`, with the calls of `tick` and what they have drawn. -/
structure CliReporter where
  total : ℤ
  completed : ℤ := 0
  lastPercent : AtomicMax ℕ ℤ := ⟨-1, fun _ => .idle⟩
  ticks : ℕ → TickStage := fun _ => .absent
  drawn : List Drawing := []

/-- The atomic operations of a call of `tick`; at the end it draws what it has written. -/
inductive TickEvent
  | count (tick : ℕ)
  | load (tick : ℕ)
  | attempt (tick : ℕ) (spurious : Bool)
  | leave (tick : ℕ)

/-- The call that an event belongs to. -/
def TickEvent.tick : TickEvent → ℕ
  | .count tick | .load tick | .attempt tick _ | .leave tick => tick

namespace CliReporter

/-- `begin`. -/
def begin (totalItems : ℤ) : CliReporter := { total := totalItems }

/-- `++completed`, which wraps around. -/
def count (st : CliReporter) (tick : ℕ) : CliReporter :=
  let done := (st.completed + 1).bmod (2 ^ 32)
  { st with completed := done, ticks := update st.ticks tick (.counted done) }

/-- The computation of `percent`, and `last_percent.load()`. -/
def load (st : CliReporter) (tick : ℕ) (done : ℤ) : CliReporter :=
  match percentOf st.total done with
  | none => { st with ticks := update st.ticks tick .overflowed }
  | some percent =>
    { st with
      lastPercent := st.lastPercent.load tick percent
      ticks := update st.ticks tick (.updating done) }

/-- The end of `tick`. -/
def leave (st : CliReporter) (tick : ℕ) (done percent : ℤ) (written : Bool) : CliReporter :=
  { st with
    ticks := update st.ticks tick (.finished done)
    drawn := if written then st.drawn ++ [⟨percent, done, st.total⟩] else st.drawn }

/-- An event, if it is possible. -/
def step (st : CliReporter) : TickEvent → Option CliReporter
  | .count tick =>
    match st.ticks tick with
    | .absent => some (st.count tick)
    | _ => none
  | .load tick =>
    match st.ticks tick with
    | .counted done => some (st.load tick done)
    | _ => none
  | .attempt tick spurious =>
    match st.lastPercent.clients tick with
    | .trying _ _ => some { st with lastPercent := st.lastPercent.attempt tick spurious }
    | _ => none
  | .leave tick =>
    match st.ticks tick, st.lastPercent.clients tick with
    | .updating done, .settled percent written => some (st.leave tick done percent written)
    | _, _ => none

end CliReporter

/-- A history of some of `n` calls of `tick`, after `begin` with as many items. -/
def TickRun (n : ℕ) (trace : List TickEvent) (st : CliReporter) : Prop :=
  Run CliReporter.step (.begin n) trace st ∧ ∀ e ∈ trace, e.tick < n

/-- A number in range is left alone. -/
theorem checkedInt_of_mem {x : ℤ} (hlow : -2 ^ 31 ≤ x) (hhigh : x < 2 ^ 31) : checkedInt x = some x :=
  if_pos ⟨hlow, hhigh⟩

/-- The cells of the bar are filled from the left. -/
theorem buildBar_eq {percent : ℤ} (hlow : 0 ≤ percent) (hhigh : percent ≤ 100) : buildBar percent =
    str "[" ++ List.replicate (30 * percent / 100).toNat 35 ++ List.replicate (30 - (30 * percent / 100).toNat) 32 ++
      str "]" := by
  have hfilled : (30 * percent).tdiv 100 = ((30 * percent / 100).toNat : ℤ) := by
    rw [Int.tdiv_eq_ediv_of_nonneg (by omega)]
    omega
  have hwidth : (30 * percent / 100).toNat ≤ 30 := by omega
  rw [buildBar, hfilled]
  generalize (30 * percent / 100).toNat = filled at hwidth
  have hcells : (List.range 30).map (fun i : ℕ => if (i : ℤ) < filled then (35 : Byte) else 32) =
      List.replicate filled 35 ++ List.replicate (30 - filled) 32 := by
    apply List.ext_getElem
    · simp [hwidth]
    · intro i hi _
      rw [List.getElem_map, List.getElem_range, List.getElem_append]
      by_cases hless : i < filled
      · simp [hless]
      · simp [hless]
  rw [hcells]
  simp [List.append_assoc]

variable {n : ℕ}

/-- The percentage of a tick is exact as long as its product fits. -/
theorem percentOf_eq {done : ℤ} (hn : n ≤ 21474836) (hlow : 1 ≤ done) (hhigh : done ≤ n) :
    percentOf n done = some (done * 100 / n) := by
  unfold percentOf
  rw [if_pos (by omega), checkedInt_of_mem (by omega) (by omega), Option.map_some,
    Int.tdiv_eq_ediv_of_nonneg (by omega)]

/-- The range of the percentages. -/
theorem percent_mem {done : ℤ} (hlow : 1 ≤ done) (hhigh : done ≤ n) : 0 ≤ done * 100 / n ∧ done * 100 / n ≤ 100 := by
  have hpos : (0 : ℤ) < n := by omega
  refine ⟨Int.ediv_nonneg (by omega) hpos.le, ?_⟩
  apply Int.ediv_le_of_le_mul hpos
  omega

/-- The number that a call of `tick` has drawn from the counter. -/
def TickStage.number? : TickStage → Option ℤ
  | .counted done | .updating done | .finished done => some done
  | .absent | .overflowed => none

/-- The counter has numbered the ticks that have begun, out of `n`. -/
structure CliReporter.Numbers (st : CliReporter) (n : ℕ) : Prop where
  total : st.total = n
  completed : st.completed = ((Finset.range n).filter fun tick => (st.ticks tick).number?.isSome).card
  latest : st.completed = 0 ∨ ∃ tick < n, (st.ticks tick).number? = some st.completed
  numbered : ∀ tick done, (st.ticks tick).number? = some done → 1 ≤ done ∧ done ≤ st.completed

/-- What holds at all times of `n` ticks whose products fit. -/
structure CliReporter.Sound (st : CliReporter) (n : ℕ) : Prop extends st.Numbers n where
  fits : ∀ tick, st.ticks tick ≠ .overflowed
  consistent : st.lastPercent.Consistent
  proposed : ∀ tick percent, (st.lastPercent.clients tick).value? = some percent →
    ∃ done, (st.ticks tick).number? = some done ∧ percent = done * 100 / n
  settled : ∀ tick done, st.ticks tick = .finished done →
    ∃ percent written, st.lastPercent.clients tick = .settled percent written
  bounded : st.lastPercent.value ≤ 100
  drawn : ∀ d ∈ st.drawn, 0 ≤ d.percent ∧ d.percent ≤ 100

namespace CliReporter

variable {st st' : CliReporter} {tick : ℕ} {done percent : ℤ} {written : Bool}

/-- What an event can do. -/
theorem step_cases {e : TickEvent} (h : st.step e = some st') :
    (∃ tick, e = .count tick ∧ st.ticks tick = .absent ∧ st' = st.count tick) ∨
    (∃ tick done, e = .load tick ∧ st.ticks tick = .counted done ∧ st' = st.load tick done) ∨
    (∃ tick percent expected spurious, e = .attempt tick spurious ∧
      st.lastPercent.clients tick = .trying percent expected ∧
      st' = { st with lastPercent := st.lastPercent.attempt tick spurious }) ∨
    ∃ tick done percent written, e = .leave tick ∧ st.ticks tick = .updating done ∧
      st.lastPercent.clients tick = .settled percent written ∧ st' = st.leave tick done percent written := by
  cases e with
  | count tick =>
    rw [step] at h
    split at h
    · next habsent =>
      cases h
      exact .inl ⟨tick, rfl, habsent, rfl⟩
    · cases h
  | load tick =>
    rw [step] at h
    split at h
    · next done hcounted =>
      cases h
      exact .inr (.inl ⟨tick, done, rfl, hcounted, rfl⟩)
    · cases h
  | attempt tick spurious =>
    rw [step] at h
    split at h
    · next percent expected htrying =>
      cases h
      exact .inr (.inr (.inl ⟨tick, percent, expected, spurious, rfl, htrying, rfl⟩))
    · cases h
  | leave tick =>
    rw [step] at h
    split at h
    · next done percent written hupdating hsettled =>
      cases h
      exact .inr (.inr (.inr ⟨tick, done, percent, written, rfl, hupdating, hsettled, rfl⟩))
    · cases h

/-- A tick in a new stage keeps its number. -/
theorem number?_update {stage : TickStage} (hold : (st.ticks tick).number? = some done)
    (hnew : stage.number? = some done) (other : ℕ) :
    (update st.ticks tick stage other).number? = (st.ticks other).number? := by
  by_cases hother : other = tick
  · rw [hother, Function.update_self, hnew, hold]
  · rw [Function.update_of_ne hother]

namespace Numbers

/-- No more ticks are completed than there are scans. -/
theorem completed_le (h : st.Numbers n) : st.completed ≤ n := by
  rw [h.completed]
  exact_mod_cast (Finset.card_filter_le _ _).trans (Finset.card_range n).le

/-- The ticks keep their numbers. -/
theorem congr (h : st.Numbers n) (htotal : st'.total = st.total) (hcompleted : st'.completed = st.completed)
    (hnumber : ∀ tick, (st'.ticks tick).number? = (st.ticks tick).number?) : st'.Numbers n := by
  constructor
  · rw [htotal, h.total]
  · simp only [hcompleted, hnumber, h.completed]
  · simp only [hcompleted, hnumber]
    exact h.latest
  · simp only [hcompleted, hnumber]
    exact h.numbered

/-- The next tick takes the next number. -/
theorem count (h : st.Numbers n) (hn : n ≤ 21474836) (habsent : st.ticks tick = .absent) (htick : tick < n) :
    (st.count tick).completed = st.completed + 1 ∧ (st.count tick).Numbers n := by
  have hnumber : ∀ other, ((st.count tick).ticks other).number? =
      if other = tick then some (st.count tick).completed else (st.ticks other).number? := by
    intro other
    change (update st.ticks tick _ other).number? = _
    rw [Function.update_apply]
    split <;> rfl
  have hnone : (st.ticks tick).number? = none := by
    rw [habsent]
    rfl
  have hle := h.completed_le
  have hnonneg : 0 ≤ st.completed := by
    rw [h.completed]
    exact Int.natCast_nonneg _
  have hcompleted : (st.count tick).completed = st.completed + 1 :=
    Int.bmod_eq_of_le (by omega) (by omega)
  refine ⟨hcompleted, h.total, ?_, .inr ⟨tick, htick, ?_⟩, ?_⟩
  · have hfilter : ((Finset.range n).filter fun other => ((st.count tick).ticks other).number?.isSome) =
        insert tick ((Finset.range n).filter fun other => (st.ticks other).number?.isSome) := by
      ext other
      simp only [Finset.mem_filter, Finset.mem_insert, Finset.mem_range, hnumber]
      by_cases hother : other = tick
      · simp [hother, htick]
      · simp [hother]
    rw [hcompleted, h.completed, hfilter, Finset.card_insert_of_notMem (by simp [hnone])]
    push_cast
    rfl
  · rw [hnumber, if_pos rfl]
  · intro other done hdone
    rw [hnumber] at hdone
    split at hdone
    · cases hdone
      rw [hcompleted]
      omega
    · obtain ⟨hlow, hhigh⟩ := h.numbered other done hdone
      rw [hcompleted]
      omega

end Numbers

namespace Sound

/-- The reporter is sound when it begins. -/
theorem initially (n : ℕ) : (begin n).Sound n where
  total := rfl
  completed := by simp [begin, TickStage.number?]
  latest := .inl rfl
  numbered _ _ := nofun
  fits _ := nofun
  consistent := ⟨fun _ _ _ => nofun, fun _ _ _ => nofun⟩
  proposed _ _ := nofun
  settled _ _ := nofun
  bounded := by simp [begin]
  drawn := nofun

/-- The percentages of the ticks are percentages. -/
theorem proposed_mem (h : st.Sound n) (hvalue : (st.lastPercent.clients tick).value? = some percent) :
    0 ≤ percent ∧ percent ≤ 100 := by
  obtain ⟨done, hdone, rfl⟩ := h.proposed tick percent hvalue
  obtain ⟨hlow, hhigh⟩ := h.numbered tick done hdone
  exact percent_mem hlow (hhigh.trans h.completed_le)

/-- Counting a tick keeps it sound. -/
theorem count (h : st.Sound n) (hn : n ≤ 21474836) (habsent : st.ticks tick = .absent) (htick : tick < n) :
    (st.count tick).Sound n := by
  obtain ⟨-, hnumbers⟩ := h.toNumbers.count hn habsent htick
  have hother : ∀ other, other ≠ tick → (st.count tick).ticks other = st.ticks other :=
    fun other hne => Function.update_of_ne hne _ _
  have hself : (st.count tick).ticks tick = .counted (st.count tick).completed := Function.update_self _ _ _
  refine ⟨hnumbers, ?_, h.consistent, ?_, ?_, h.bounded, h.drawn⟩
  · exact (Function.forall_update_iff st.ticks fun _ stage => stage ≠ .overflowed).mpr ⟨nofun, fun _ _ => h.fits _⟩
  · intro other percent hvalue
    obtain ⟨done, hdone, hpercent⟩ := h.proposed other percent hvalue
    have hne : other ≠ tick := by
      rintro rfl
      rw [habsent] at hdone
      cases hdone
    exact ⟨done, by rw [hother other hne, hdone], hpercent⟩
  · intro other done hdone
    have hne : other ≠ tick := by
      rintro rfl
      rw [hself] at hdone
      cases hdone
    rw [hother other hne] at hdone
    exact h.settled other done hdone

/-- So does the load behind it. -/
theorem load (h : st.Sound n) (hn : n ≤ 21474836) (hcounted : st.ticks tick = .counted done) :
    (st.load tick done).Sound n := by
  have hnumber : (st.ticks tick).number? = some done := by
    rw [hcounted]
    rfl
  obtain ⟨hlow, hhigh⟩ := h.numbered tick done hnumber
  have hpercent : percentOf st.total done = some (done * 100 / n) := by
    rw [h.total]
    exact percentOf_eq hn hlow (hhigh.trans h.completed_le)
  have hload : st.load tick done = { st with
      lastPercent := st.lastPercent.load tick (done * 100 / n)
      ticks := update st.ticks tick (.updating done) } := by
    rw [CliReporter.load, hpercent]
  have hnumbers := @number?_update st tick done (.updating done) hnumber rfl
  rw [hload]
  refine ⟨h.toNumbers.congr rfl rfl hnumbers, ?_, h.consistent.load _ _, ?_, ?_, h.bounded, h.drawn⟩
  · exact (Function.forall_update_iff st.ticks fun _ stage => stage ≠ .overflowed).mpr ⟨nofun, fun _ _ => h.fits _⟩
  · intro other percent hvalue
    simp only [hnumbers]
    by_cases hne : other = tick
    · subst hne
      change (update st.lastPercent.clients other _ other).value? = _ at hvalue
      rw [Function.update_self] at hvalue
      cases hvalue
      exact ⟨done, hnumber, rfl⟩
    · change (update st.lastPercent.clients tick _ other).value? = _ at hvalue
      rw [Function.update_of_ne hne] at hvalue
      exact h.proposed other percent hvalue
  · intro other d hd
    have hne : other ≠ tick := by
      rintro rfl
      change update st.ticks other _ other = _ at hd
      rw [Function.update_self] at hd
      cases hd
    change update st.ticks tick _ other = _ at hd
    rw [Function.update_of_ne hne] at hd
    obtain ⟨percent, written, hclient⟩ := h.settled other d hd
    exact ⟨percent, written, (Function.update_of_ne hne _ _).trans hclient⟩

/-- So does an attempt to raise the percentage. -/
theorem attempt (h : st.Sound n) {expected : ℤ} (htrying : st.lastPercent.clients tick = .trying percent expected)
    (spurious : Bool) : ({ st with lastPercent := st.lastPercent.attempt tick spurious } : CliReporter).Sound n := by
  obtain ⟨stage, hstage, hclients⟩ := AtomicMax.attempt_clients htrying spurious
  have hvalue : (st.lastPercent.clients tick).value? = some percent := by
    rw [htrying]
    rfl
  refine ⟨h.toNumbers.congr rfl rfl fun _ => rfl, h.fits, h.consistent.attempt htrying spurious, ?_, ?_, ?_, h.drawn⟩
  · intro other p hp
    rw [hclients, Function.update_apply] at hp
    split at hp
    · next heq =>
      apply h.proposed other p
      rw [heq, hvalue, ← hstage, hp]
    · exact h.proposed other p hp
  · intro other done hdone
    obtain ⟨p, written, hclient⟩ := h.settled other done hdone
    have hne : other ≠ tick := by
      rintro rfl
      rw [htrying] at hclient
      cases hclient
    exact ⟨p, written, by rw [hclients, Function.update_of_ne hne, hclient]⟩
  · rcases AtomicMax.attempt_value htrying spurious with hsame | hnew
    · rw [hsame]
      exact h.bounded
    · rw [hnew]
      exact (h.proposed_mem hvalue).2

/-- So does the end of a tick. -/
theorem leave (h : st.Sound n) (hupdating : st.ticks tick = .updating done)
    (hsettled : st.lastPercent.clients tick = .settled percent written) :
    (st.leave tick done percent written).Sound n := by
  have hnumbers := @number?_update st tick done (.finished done) (by rw [hupdating]; rfl) rfl
  refine ⟨h.toNumbers.congr rfl rfl hnumbers, ?_, h.consistent, ?_, ?_, h.bounded, ?_⟩
  · exact (Function.forall_update_iff st.ticks fun _ stage => stage ≠ .overflowed).mpr ⟨nofun, fun _ _ => h.fits _⟩
  · intro other p hp
    change ∃ d, (update st.ticks tick (.finished done) other).number? = some d ∧ p = d * 100 / n
    simp only [hnumbers]
    exact h.proposed other p hp
  · intro other d hd
    by_cases hne : other = tick
    · rw [hne]
      exact ⟨percent, written, hsettled⟩
    · change update st.ticks tick _ other = _ at hd
      rw [Function.update_of_ne hne] at hd
      exact h.settled other d hd
  · intro d hd
    have hpercent : (st.lastPercent.clients tick).value? = some percent := by
      rw [hsettled]
      rfl
    change d ∈ (if written then st.drawn ++ [⟨percent, done, st.total⟩] else st.drawn) at hd
    split at hd
    · rcases List.mem_append.mp hd with hold | hnew
      · exact h.drawn d hold
      · rw [List.mem_singleton.mp hnew]
        exact h.proposed_mem hpercent
    · exact h.drawn d hd

end Sound

/-- `last_percent` never decreases. -/
theorem value_le_of_step {e : TickEvent} (h : st.step e = some st') : st.lastPercent.value ≤ st'.lastPercent.value := by
  rcases step_cases h with ⟨_, -, -, rfl⟩ | ⟨_, _, -, -, rfl⟩ | ⟨_, _, _, spurious, -, htrying, rfl⟩ |
    ⟨_, _, _, _, -, -, -, rfl⟩
  · exact le_rfl
  · unfold CliReporter.load
    split <;> exact le_rfl
  · exact AtomicMax.le_attempt htrying spurious
  · exact le_rfl

end CliReporter

section Runs

variable {trace : List TickEvent} {st : CliReporter}

/-- The reporter is sound in every run. -/
theorem TickRun.sound (run : TickRun n trace st) (hn : n ≤ 21474836) : st.Sound n := by
  obtain ⟨run, hticks⟩ := run
  revert hticks
  refine run.invariant (fun trace st => (∀ e ∈ trace, e.tick < n) → st.Sound n) (fun _ => .initially n) ?_
  intro trace st e st' _ ih h hticks
  have hsound := ih fun e he => hticks e (List.mem_append_left _ he)
  rcases CliReporter.step_cases h with ⟨tick, rfl, habsent, rfl⟩ | ⟨tick, done, rfl, hcounted, rfl⟩ |
    ⟨tick, _, _, spurious, rfl, htrying, rfl⟩ | ⟨tick, done, percent, written, rfl, hupdating, hsettled, rfl⟩
  · exact hsound.count hn habsent (hticks _ (List.mem_append_right _ (List.mem_singleton_self _)))
  · exact hsound.load hn hcounted
  · exact hsound.attempt htrying spurious
  · exact hsound.leave hupdating hsettled

/-- The percentage does not fall. -/
theorem Run.value_le {mid : CliReporter} (run : Run CliReporter.step mid trace st) :
    mid.lastPercent.value ≤ st.lastPercent.value :=
  run.invariant (fun _ st => mid.lastPercent.value ≤ st.lastPercent.value) le_rfl
    fun _ _ _ _ _ ih h => ih.trans (CliReporter.value_le_of_step h)

/-- After the last tick `last_percent` is 100. -/
theorem CliReporter.Sound.complete (h : st.Sound n) (hpos : 0 < n)
    (hall : ∀ tick < n, ∃ done, st.ticks tick = .finished done) : st.lastPercent.value = 100 := by
  have hfilter : ((Finset.range n).filter fun tick => (st.ticks tick).number?.isSome) = Finset.range n := by
    apply Finset.filter_true_of_mem
    intro tick htick
    obtain ⟨done, hdone⟩ := hall tick (Finset.mem_range.mp htick)
    rw [hdone]
    rfl
  have hcompleted : st.completed = n := by rw [h.completed, hfilter, Finset.card_range]
  rcases h.latest with hzero | ⟨tick, htick, hlatest⟩
  · omega
  · obtain ⟨done, hdone⟩ := hall tick htick
    obtain ⟨percent, written, hclient⟩ := h.settled tick done hdone
    obtain ⟨d, hd, hpercent⟩ := h.proposed tick percent (by rw [hclient]; rfl)
    have hlast : d = n := by
      rw [hlatest, hcompleted] at hd
      exact (Option.some.inj hd).symm
    have hreached := h.consistent.settled tick percent written hclient
    rw [hpercent, hlast, Int.mul_ediv_cancel_left _ (by omega)] at hreached
    exact le_antisymm h.bounded hreached

/-- All ticks may begin before the first of them goes on. -/
theorem exists_run_count (total : ℤ) {k : ℕ} (hk : k < 2 ^ 31) :
    ∃ st, Run CliReporter.step (.begin total) ((List.range k).map .count) st ∧ st.total = total ∧ st.completed = k ∧
      ∀ tick, st.ticks tick = if tick < k then .counted (tick + 1) else .absent := by
  induction k with
  | zero => exact ⟨.begin total, .nil, rfl, rfl, fun _ => rfl⟩
  | succ k ih =>
    obtain ⟨st, run, htotal, hcompleted, hticks⟩ := ih (by omega)
    have hdone : (st.completed + 1).bmod (2 ^ 32) = k + 1 := by
      rw [hcompleted]
      exact Int.bmod_eq_of_le (by omega) (by omega)
    have hstep : st.step (.count k) = some (st.count k) := by
      rw [CliReporter.step, hticks k, if_neg (lt_irrefl k)]
    refine ⟨st.count k, ?_, htotal, ?_, ?_⟩
    · rw [List.range_succ, List.map_append]
      exact .next run hstep
    · exact hdone.trans (by push_cast; rfl)
    · intro tick
      change update st.ticks k (.counted _) tick = _
      rw [hdone, Function.update_apply, hticks]
      split_ifs with heq hlt hlt hlt'
      · rw [heq]
      · omega
      · rfl
      · omega
      · omega
      · rfl

/-- The product of the tick with number 21474837 overflows. -/
theorem exists_run_overflowed (hlarge : 21474837 ≤ n) :
    ∃ trace st, TickRun n trace st ∧ st.ticks 21474836 = .overflowed := by
  obtain ⟨st, run, htotal, -, hticks⟩ := exists_run_count n (show 21474837 < 2 ^ 31 by norm_num)
  have hcounted : st.ticks 21474836 = .counted (21474836 + 1) := by
    rw [hticks, if_pos (by norm_num)]
    rfl
  have hoverflow : percentOf st.total (21474836 + 1) = none := by
    rw [htotal, percentOf, if_pos (by omega)]
    rfl
  have hstep : st.step (.load 21474836) = some (st.load 21474836 (21474836 + 1)) := by
    rw [CliReporter.step, hcounted]
  refine ⟨_, _, ⟨.next run hstep, fun e he => ?_⟩, ?_⟩
  · rcases List.mem_append.mp he with hcount | hload
    · obtain ⟨tick, htick, rfl⟩ := List.mem_map.mp hcount
      exact (List.mem_range.mp htick).trans_le hlarge
    · rw [List.mem_singleton.mp hload]
      exact hlarge
  · rw [CliReporter.load, hoverflow]
    exact Function.update_self 21474836 TickStage.overflowed st.ticks

end Runs

/-- What a history of ticks is to be: no product overflows, what is drawn is a percentage, and the last percentage
never decreases and is 100 in the end. -/
structure ReportsSoundly (n : ℕ) (trace : List TickEvent) (st : CliReporter) : Prop where
  fits : ∀ tick, st.ticks tick ≠ .overflowed
  drawn : ∀ d ∈ st.drawn, 0 ≤ d.percent ∧ d.percent ≤ 100
  monotone : ∀ before after mid, trace = before ++ after → Run CliReporter.step (.begin n) before mid →
    mid.lastPercent.value ≤ st.lastPercent.value
  complete : (∀ tick < n, ∃ done, st.ticks tick = .finished done) → st.lastPercent.value = 100

/-- The number of items is exact, and so is the arithmetic of all histories of as many ticks. -/
def ProgressSound (hosts startPort endPort : ℕ) : Prop :=
  totalScans hosts startPort endPort = some ((hosts * (endPort + 1 - startPort) : ℕ) : ℤ) ∧
    ∀ trace st, TickRun (hosts * (endPort + 1 - startPort)) trace st →
      ReportsSoundly (hosts * (endPort + 1 - startPort)) trace st

/-- At most `2 ^ 16` hosts are scanned. -/
theorem length_expandCidr_le (input : Bytes) : (expandCidr input).length ≤ 65536 := by
  unfold expandCidr
  split
  · exact Nat.le_of_ble_eq_true rfl
  · split
    · exact Nat.zero_le _
    · next prefixLen _ =>
      split_ifs with hrange
      · exact Nat.zero_le _
      · split
        · exact Nat.zero_le _
        · rw [List.length_map, List.length_range, toNat_cidrCount (by omega)]
          exact min_le_right _ _

/-- The number of scans, if it fits. -/
theorem totalScans_eq {hosts startPort endPort : ℕ} (hhosts : hosts ≤ 65536) (hports : startPort ≤ endPort)
    (hend : endPort ≤ 65535) (hfits : hosts * (endPort + 1 - startPort) < 2 ^ 31) :
    totalScans hosts startPort endPort = some ((hosts * (endPort + 1 - startPort) : ℕ) : ℤ) := by
  have hsize : (hosts : ℤ).bmod (2 ^ 32) = hosts := Int.bmod_eq_of_le (by omega) (by omega)
  have hcount : (endPort : ℤ) - startPort + 1 = (endPort + 1 - startPort : ℕ) := by omega
  unfold totalScans
  rw [checkedInt_of_mem (by omega) (by omega), Option.bind_eq_bind, Option.bind_some,
    checkedInt_of_mem (by omega) (by omega), Option.bind_some, hsize, hcount, ← Nat.cast_mul]
  exact checkedInt_of_mem (by omega) (by exact_mod_cast hfits)

/-- The progress of a full scan is computed without an overflow exactly when its hosts times its ports are no more
than 21474836: the product of the last tick is a hundred times as large. -/
theorem progressSound_iff (input : Bytes) {startPort endPort : ℕ} (hne : expandCidr input ≠ [])
    (hports : startPort ≤ endPort) (hend : endPort ≤ 65535) :
    ProgressSound (expandCidr input).length startPort endPort ↔
      (expandCidr input).length * (endPort + 1 - startPort) ≤ 21474836 := by
  have hhosts := length_expandCidr_le input
  have hpos : 0 < (expandCidr input).length * (endPort + 1 - startPort) :=
    Nat.mul_pos (List.length_pos_of_ne_nil hne) (by omega)
  generalize (expandCidr input).length = hosts at hhosts hpos
  constructor
  · rintro ⟨-, hruns⟩
    by_contra hlarge
    obtain ⟨trace, st, run, hoverflow⟩ := exists_run_overflowed (show 21474837 ≤ _ from not_le.mp hlarge)
    exact (hruns trace st run).fits 21474836 hoverflow
  · intro hn
    refine ⟨totalScans_eq hhosts hports hend (by omega), fun trace st run => ?_⟩
    have hsound := run.sound hn
    refine ⟨hsound.fits, hsound.drawn, ?_, hsound.complete hpos⟩
    rintro before after mid rfl hmid
    obtain ⟨other, hbefore, hafter⟩ := run.1.split
    cases (Option.some.inj ((Run.iff_foldlM.mp hbefore).symm.trans (Run.iff_foldlM.mp hmid)))
    exact Run.value_le hafter

/-- Four hosts. -/
theorem progressSound_iff_small : ProgressSound (expandCidr (str "10.0.0.0/30")).length 1 1024 ↔
    (expandCidr (str "10.0.0.0/30")).length * (1024 + 1 - 1) ≤ 21474836 :=
  progressSound_iff (str "10.0.0.0/30") (by decide +kernel) (by decide) (by decide)

/-- A scan of all ports of 512 hosts overflows. -/
theorem not_progressSound_allPorts : ¬ProgressSound (expandCidr (str "10.0.0.0/23")).length 1 65535 := by
  have hlength : (expandCidr (str "10.0.0.0/23")).length = 512 := by decide +kernel
  rw [hlength]
  rintro ⟨-, hruns⟩
  obtain ⟨trace, st, run, hoverflow⟩ := exists_run_overflowed (show 21474837 ≤ 512 * (65535 + 1 - 1) by norm_num)
  exact (hruns trace st run).fits 21474836 hoverflow

end ZeroTrust
