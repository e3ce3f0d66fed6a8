import ZeroTrust.Tools.FixTable
import ZeroTrust.Tools.SyncRuns

/-!
# Trackers that have not changed

The rows of a sync without its cache: what the parsers make of one document for each address. As long as the
trackers answer what they have answered for the files that the fetcher still takes, the cache, its TTL and whether
it is used make no difference to the rows.
-/

namespace ZeroTrust

/-- What the parsers get of an answer: a document that is not empty, nothing, or no result for an exception. -/
def TrackerAnswer.text : TrackerAnswer → Option (Option Text)
  | .document data => some ((some data).filter (· ≠ []))
  | .notFound | .failed => some none
  | .raised => none

/-- An answer that leaves a text in the cache. -/
def TrackerAnswer.Leaves : TrackerAnswer → Text → Prop
  | .document data, stored => data = stored
  | .notFound, stored => stored = []
  | .failed, _ | .raised, _ => False

namespace SyncOptions

variable (opts : SyncOptions) (answer : Text → TrackerAnswer)

/-- The rows of a CVE from what Ubuntu answers. -/
def ubuntuOf (cve : Text) : Option (List (Option FixRow)) :=
  if opts.ubuntu then do
    match ← (answer (ubuntuUrl cve)).text with
    | some blob => parseUbuntu opts.convert cve (opts.parse blob)
    | none => return []
  else return []

/-- The rows of a CVE from an index. -/
def debianOf (index : List (Text × Text × TrackerValue)) (cve : Text) : Option (List (Option FixRow)) :=
  if opts.debian ∧ index ≠ [] then rowsFromDebianIndex opts.convert cve index else return []

/-- The index of what Debian answers. -/
def indexOf : Option (List (Text × Text × TrackerValue)) :=
  if opts.debian then do
    match ← (answer debianUrl).text with
    | some blob => return buildDebianIndex opts.convert (opts.parse blob)
    | none => return []
  else return []

/-- The rows of a CVE. -/
def cveRows (index : List (Text × Text × TrackerValue)) (cve : Text) : Option (List (Option FixRow)) := do
  return (← opts.ubuntuOf answer cve) ++ (← opts.debianOf index cve)

/-- The rows of all CVEs. -/
def rowsOf (cves : List Text) : Option (List (Option FixRow)) := do
  let index ← opts.indexOf answer
  return (← cves.mapM (opts.cveRows answer index)).flatten

end SyncOptions

variable {trackers : Trackers} {opts : SyncOptions} {answer : Text → TrackerAnswer} {st : SyncState}

/-- The trackers answer from now on what they have answered for the files that are still taken. -/
structure SyncState.Unchanged (trackers : Trackers) (f : Fetcher) (answer : Text → TrackerAnswer) (st : SyncState) :
    Prop where
  sound : st.Sound trackers
  later : ∀ n, st.requests ≤ n → ∀ url, trackers.answer n url = answer url
  replies : ∀ r ∈ st.replies, f.force = false → (st.clock : ℤ) - r.time < f.ttl → (answer r.url).Leaves r.data

namespace SyncState.Unchanged

variable {f : Fetcher}

/-- Fewer files are taken later. -/
theorem wait (h : st.Unchanged trackers f answer) (time : ℕ) :
    { st with clock := st.clock + time }.Unchanged trackers f answer where
  sound := ⟨h.sound.traced, h.sound.urls, h.sound.sent⟩
  later := h.later
  replies r hr hforce hfresh := h.replies r hr hforce (by push_cast at hfresh; omega)

/-- A request changes nothing that counts. -/
theorem request (h : st.Unchanged trackers f answer) : (st.request trackers).Unchanged trackers f answer where
  sound := h.sound.request
  later n hn := h.later n ((Nat.le_succ _).trans hn)
  replies := (h.wait (trackers.delay st.requests)).replies

/-- The answer that is stored is one that the trackers still give. -/
theorem store (h : st.Unchanged trackers f answer) {url data : Text} (hurl : SyncUrl url)
    (hleaves : (answer url).Leaves data) (hsent : data = [] ∨ ∃ n, trackers.answer n url = .document data) :
    (st.store url data).Unchanged trackers f answer where
  sound := h.sound.store hurl hsent
  later := h.later
  replies := by
    simp only [SyncState.store, List.forall_mem_append, List.forall_mem_singleton]
    exact ⟨h.replies, fun _ _ => hleaves⟩

end SyncState.Unchanged

/-- Only the empty text is read as the empty text. -/
theorem universalNewlines_eq_nil {t : Text} : universalNewlines t = [] ↔ t = [] := by
  refine ⟨fun h => ?_, fun h => by rw [h, universalNewlines]⟩
  rw [universalNewlines.eq_def] at h
  split at h
  · cases h
  · cases h
  · rfl

/-- A stored text is read as the document that left it. -/
theorem TrackerAnswer.Leaves.read {a : TrackerAnswer} {stored : Text} (h : a.Leaves stored)
    (hparse : ∀ t, opts.parse (universalNewlines t) = opts.parse t) : ∃ sent, a.text = some sent ∧
      ((some (universalNewlines stored)).filter (· ≠ [])).map opts.parse = sent.map opts.parse := by
  have hkeep {t : Text} (ht : t ≠ []) : (some t).filter (· ≠ []) = some t := by simp [ht]
  have hnothing : ((some (universalNewlines [])).filter (· ≠ [])).map opts.parse = none := by
    rw [universalNewlines]
    rfl
  cases a with
  | document data =>
    obtain rfl : data = stored := h
    refine ⟨_, rfl, ?_⟩
    by_cases hempty : data = []
    · rw [hempty, hnothing]
      rfl
    · rw [hkeep (universalNewlines_eq_nil.not.mpr hempty), hkeep hempty, Option.map_some, Option.map_some, hparse]
  | notFound =>
    obtain rfl : stored = [] := h
    exact ⟨none, rfl, hnothing⟩
  | failed => exact h.elim
  | raised => exact h.elim

/-- A part of the run ends with a value, or with an exception if there is none. -/
def Ends {α : Type} (o : Outcome SyncState SyncError Empty α) (value : Option α) (st' : SyncState) : Prop :=
  match value with
  | some a => o = .ok a st'
  | none => ∃ e, o = .throw e st'

/-- What `get` returns is read as what the trackers answer, from the cache or not. -/
theorem SyncState.Unchanged.get (h : st.Unchanged trackers opts.fetcher answer)
    (hparse : ∀ t, opts.parse (universalNewlines t) = opts.parse t) {url : Text} (hurl : SyncUrl url) :
    ∃ blob st', st'.Unchanged trackers opts.fetcher answer ∧ Ends (opts.fetcher.get trackers url st) blob st' ∧
      blob.map (fun b => (b.filter (· ≠ [])).map opts.parse) = (answer url).text.map (·.map opts.parse) := by
  have hanswer := h.later st.requests le_rfl url
  unfold Fetcher.get
  split
  · next file hfile =>
    refine ⟨some _, st, h, rfl, ?_⟩
    unfold Fetcher.cached at hfile
    split at hfile
    · cases hfile
    · next hforce =>
      obtain ⟨hcached, hfresh⟩ := Option.filter_eq_some_iff.mp hfile
      obtain ⟨r, hr, hkey, rfl⟩ := h.sound.traced _ _ hcached
      have hleaves := h.replies r hr (Bool.eq_false_iff.mpr hforce) (of_decide_eq_true hfresh)
      rw [(h.sound.urls r hr).eq_of_cacheKey hurl hkey] at hleaves
      obtain ⟨sent, hsent, hread⟩ := hleaves.read hparse
      rw [hsent, Option.map_some, Option.map_some, hread]
  · split
    · next data hdata =>
      rw [hdata] at hanswer
      refine ⟨some _, _, h.request.store hurl (hanswer ▸ rfl) (.inr ⟨_, hdata⟩), rfl, ?_⟩
      rw [← hanswer]
      rfl
    · next hmissing =>
      rw [hmissing] at hanswer
      refine ⟨some _, _, h.request.store hurl (hanswer ▸ rfl) (.inl rfl), rfl, ?_⟩
      rw [← hanswer]
      rfl
    · next hfailed =>
      rw [hfailed] at hanswer
      refine ⟨some _, _, h.request, rfl, ?_⟩
      rw [← hanswer]
      rfl
    · next hraised =>
      rw [hraised] at hanswer
      refine ⟨none, _, h.request, ⟨_, rfl⟩, ?_⟩
      rw [← hanswer]
      rfl

/-- The parsers get what the trackers answer, from the cache or not. -/
theorem SyncState.Unchanged.document (h : st.Unchanged trackers opts.fetcher answer)
    (hparse : ∀ t, opts.parse (universalNewlines t) = opts.parse t) {url : Text} (hurl : SyncUrl url) :
    ∃ blob st', st'.Unchanged trackers opts.fetcher answer ∧ Ends (opts.document trackers url st) blob st' ∧
      blob.map (·.map opts.parse) = (answer url).text.map (·.map opts.parse) := by
  obtain ⟨blob, st', hunchanged, hends, hread⟩ := h.get hparse hurl
  cases blob with
  | none =>
    obtain ⟨e, he⟩ := hends
    exact ⟨none, st', hunchanged, ⟨e, Effect.bind_run_throw he _⟩, hread⟩
  | some blob => exact ⟨some _, st', hunchanged, Effect.bind_run_ok hends _, hread⟩

/-- A part of the run gives the value, or raises an exception if there is none. -/
def Computes {α : Type} (trackers : Trackers) (f : Fetcher) (answer : Text → TrackerAnswer) (p : Sync α)
    (value : Option α) : Prop :=
  ∀ st : SyncState, st.Unchanged trackers f answer →
    ∃ st' : SyncState, st'.Unchanged trackers f answer ∧ Ends (p st) value st'

section Computes

variable {α β : Type} {f : Fetcher}

/-- What a parser gives. -/
theorem computes_orRaise (e : SyncError) (value : Option α) :
    Computes trackers f answer (orRaise e value) value := by
  intro st h
  cases value with
  | none => exact ⟨st, h, e, rfl⟩
  | some a => exact ⟨st, h, rfl⟩

/-- A value. -/
theorem computes_pure (a : α) : Computes trackers f answer (pure a) (some a) := fun st h => ⟨st, h, rfl⟩

/-- Parts in a row stop at the first exception. -/
theorem Computes.bind {p : Sync α} {value : Option α} {k : α → Sync β} {g : α → Option β}
    (hp : Computes trackers f answer p value) (hk : ∀ a, Computes trackers f answer (k a) (g a)) :
    Computes trackers f answer (p >>= k) (value.bind g) := by
  intro st h
  obtain ⟨st₁, h₁, hrun⟩ := hp st h
  cases value with
  | none =>
    obtain ⟨e, he⟩ := hrun
    exact ⟨st₁, h₁, e, Effect.bind_run_throw he k⟩
  | some a =>
    obtain ⟨st₂, h₂, hrest⟩ := hk a st₁ h₁
    refine ⟨st₂, h₂, ?_⟩
    rw [Effect.bind_run_ok hrun k]
    exact hrest

/-- A choice between parts. -/
theorem Computes.ite {c : Prop} [Decidable c] {p q : Sync α} {value other : Option α}
    (hp : Computes trackers f answer p value) (hq : Computes trackers f answer q other) :
    Computes trackers f answer (if c then p else q) (if c then value else other) := by
  split
  · exact hp
  · exact hq

/-- A document goes to its parser. -/
theorem computes_document (hparse : ∀ t, opts.parse (universalNewlines t) = opts.parse t) {url : Text}
    (hurl : SyncUrl url) {k : Option Text → Sync β} {g : Option Text → Option β}
    (hk : ∀ blob, Computes trackers opts.fetcher answer (k blob) (g blob))
    (hg : ∀ blob blob', blob.map opts.parse = blob'.map opts.parse → g blob = g blob') :
    Computes trackers opts.fetcher answer (opts.document trackers url >>= k) ((answer url).text.bind g) := by
  intro st h
  obtain ⟨blob, st₁, h₁, hends, hread⟩ := h.document hparse hurl
  cases blob with
  | none =>
    obtain ⟨e, he⟩ := hends
    rw [Option.map_none, eq_comm, Option.map_eq_none_iff] at hread
    rw [hread]
    exact ⟨st₁, h₁, e, Effect.bind_run_throw he k⟩
  | some blob =>
    rw [Option.map_some, eq_comm, Option.map_eq_some_iff] at hread
    obtain ⟨sent, hsent, hsame⟩ := hread
    obtain ⟨st₂, h₂, hrest⟩ := hk blob st₁ h₁
    refine ⟨st₂, h₂, ?_⟩
    rw [Effect.bind_run_ok hends, hsent, Option.bind_some, hg sent blob hsame]
    exact hrest

end Computes

section Run

variable (hparse : ∀ t, opts.parse (universalNewlines t) = opts.parse t)

include hparse

/-- The rows of Ubuntu. -/
theorem computes_ubuntuRows {cve : Text} (hcve : PlainId cve) :
    Computes trackers opts.fetcher answer (opts.ubuntuRows trackers cve) (opts.ubuntuOf answer cve) := by
  refine .ite (computes_document hparse (.ubuntu hcve) (fun blob => ?_) fun blob blob' hsame => ?_) (computes_pure [])
  · cases blob with
    | none => exact computes_pure []
    | some blob => exact computes_orRaise _ _
  · cases blob <;> cases blob' <;> simp only [Option.map_some, Option.map_none, reduceCtorEq, Option.some_inj] at hsame
    · rfl
    · simp only [hsame]

/-- The index of Debian. -/
theorem computes_debianIndex :
    Computes trackers opts.fetcher answer (opts.debianIndex trackers) (opts.indexOf answer) := by
  refine .ite (computes_document hparse .debian (fun blob => ?_) fun blob blob' hsame => ?_) (computes_pure [])
  · cases blob with
    | none => exact computes_pure []
    | some blob => exact computes_pure _
  · cases blob <;> cases blob' <;> simp only [Option.map_some, Option.map_none, reduceCtorEq, Option.some_inj] at hsame
    · rfl
    · simp only [hsame]

omit hparse in
/-- The pause. -/
theorem computes_pause : Computes trackers opts.fetcher answer (pauseSync trackers) (some ()) :=
  fun st h => ⟨_, h.wait (trackers.pause st.requests), rfl⟩

/-- The loop gives the rows of its CVEs, one after the other. -/
theorem computes_syncCves (index : List (Text × Text × TrackerValue)) {cves : List Text}
    (hcves : ∀ cve ∈ cves, PlainId cve) :
    Computes trackers opts.fetcher answer (opts.syncCves trackers index cves)
      ((cves.mapM (opts.cveRows answer index)).map List.flatten) := by
  induction cves with
  | nil => exact computes_pure []
  | cons cve cves ih =>
    obtain ⟨hcve, hcves⟩ := List.forall_mem_cons.mp hcves
    have hrows : ((cve :: cves).mapM (opts.cveRows answer index)).map List.flatten =
        (opts.ubuntuOf answer cve).bind fun ubuntu => (opts.debianOf index cve).bind fun debian =>
          ((cves.mapM (opts.cveRows answer index)).map List.flatten).bind fun rows =>
            some (ubuntu ++ debian ++ rows) := by
      rw [List.mapM_cons, SyncOptions.cveRows]
      cases opts.ubuntuOf answer cve with
      | none => rfl
      | some ubuntu =>
        cases opts.debianOf index cve with
        | none => rfl
        | some debian => cases cves.mapM (opts.cveRows answer index) <;> rfl
    rw [hrows]
    refine (computes_ubuntuRows hparse hcve).bind fun ubuntu => ?_
    refine Computes.bind (Computes.ite (computes_orRaise _ _) (computes_pure [])) fun debian => ?_
    have hrest := computes_pause.bind fun _ => (ih hcves).bind fun rows => computes_pure (ubuntu ++ debian ++ rows)
    exact hrest

/-- While the trackers do not change their answers, a run gives the rows of these answers whether its files come
from the cache or not; it fails exactly when there are none. -/
theorem cache_transparent {trace : List SyncEvent} {st : SyncState} (history : SyncHistory trackers trace st)
    {cves : List Text} (hcves : ∀ cve ∈ cves, PlainId cve)
    (hlater : ∀ n, st.requests ≤ n → ∀ url, trackers.answer n url = answer url)
    (hcached : ∀ r ∈ st.replies, opts.fetcher.force = false → (st.clock : ℤ) - r.time < opts.fetcher.ttl →
      (answer r.url).Leaves r.data)
    (rows : List (Option FixRow)) :
    (∃ st', opts.allRows trackers cves st = .ok rows st') ↔ opts.rowsOf answer cves = some rows := by
  have hrun : Computes trackers opts.fetcher answer (opts.allRows trackers cves) (opts.rowsOf answer cves) := by
    have hrows : opts.rowsOf answer cves = (opts.indexOf answer).bind fun index =>
        (cves.mapM (opts.cveRows answer index)).map List.flatten := by
      unfold SyncOptions.rowsOf
      cases opts.indexOf answer with
      | none => rfl
      | some index => exact Option.map_eq_bind.symm
    rw [hrows]
    exact (computes_debianIndex hparse).bind fun index => computes_syncCves hparse index hcves
  obtain ⟨st', -, hends⟩ := hrun st ⟨history.sound, hlater, hcached⟩
  cases hvalue : opts.rowsOf answer cves with
  | none =>
    rw [hvalue] at hends
    obtain ⟨e, he⟩ := hends
    refine iff_of_false ?_ nofun
    rintro ⟨t, hrows⟩
    cases he.symm.trans hrows
  | some value =>
    rw [hvalue] at hends
    constructor
    · rintro ⟨t, hrows⟩
      cases hends.symm.trans hrows
      rfl
    · intro hrows
      cases hrows
      exact ⟨st', hends⟩

end Run

/-- The document about OpenSSH, with a carriage return at its end. -/
def jammyRecord : Text :=
  text "\x7b\"packages\": [\x7b\"name\": \"openssh\", \"statuses\": [\x7b\"release_codename\": \"jammy\", " ++
    text "\"status\": \"released\", \"description\": \"1:8.9p1-3ubuntu0.10\"\x7d]\x7d]\x7d\r\n"

/-- A sync with Ubuntu. -/
def jammySync : SyncOptions where
  fetcher := ⟨86400000000000, false⟩
  ubuntu := true
  debian := false
  convert := asciiCase
  parse := fun t => if universalNewlines t = universalNewlines jammyRecord then
    some (jammyDocument (text "1:8.9p1-3ubuntu0.10")) else none

/-- Ubuntu sends the record whenever it is asked for it. -/
def steadyAnswer : Trackers where
  answer := fun _ _ => .document jammyRecord
  delay := fun _ => 1000000
  pause := fun _ => 150000000

/-- No carriage return is left. -/
theorem universalNewlines_universalNewlines (t : Text) :
    universalNewlines (universalNewlines t) = universalNewlines t := by
  fun_induction universalNewlines t with
  | case1 rest ih => simp [universalNewlines, ih]
  | case2 c rest hno ih =>
    split
    · simp [universalNewlines, ih]
    · next hc => simp [universalNewlines, ih, hc]
  | case3 => simp [universalNewlines]

/-- The second sync, an hour later, gives the rows of the cached record. -/
theorem cache_transparent_sample : ∃ st st',
    SyncHistory steadyAnswer [.run jammySync [text "CVE-2024-6387"], .wait 3600000000000] st ∧
      jammySync.allRows steadyAnswer [text "CVE-2024-6387"] st =
        .ok [some (jammyRow (text "1:8.9p1-3ubuntu0.10"))] st' := by
  have hplain : ∀ cve ∈ [text "CVE-2024-6387"], PlainId cve := by decide
  have hruns : (([.run jammySync [text "CVE-2024-6387"], .wait 3600000000000] : List SyncEvent).foldlM
      (SyncState.step steadyAnswer) ({} : SyncState)).any (fun st => st.replies.all (·.data == jammyRecord)) =
        true := by
    decide +kernel
  obtain ⟨st, hst, hreplies⟩ := (Option.any_eq_true _ _).mp hruns
  have history : SyncHistory steadyAnswer [.run jammySync [text "CVE-2024-6387"], .wait 3600000000000] st :=
    ⟨Run.iff_foldlM.mpr hst, List.forall_mem_cons.mpr ⟨hplain, List.forall_mem_singleton.mpr trivial⟩⟩
  have hparse (t : Text) : jammySync.parse (universalNewlines t) = jammySync.parse t := by
    simp only [jammySync, universalNewlines_universalNewlines]
  have hrows : jammySync.rowsOf (fun _ => .document jammyRecord) [text "CVE-2024-6387"] =
      some [some (jammyRow (text "1:8.9p1-3ubuntu0.10"))] := by
    decide +kernel
  obtain ⟨st', hrun⟩ := (cache_transparent hparse history hplain (fun _ _ _ => rfl)
    (fun r hr _ _ => (beq_iff_eq.mp (List.all_eq_true.mp hreplies r hr)).symm) _).mpr hrows
  exact ⟨st, st', history, hrun⟩

end ZeroTrust
