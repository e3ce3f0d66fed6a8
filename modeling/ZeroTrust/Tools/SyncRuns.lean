import ZeroTrust.Tools.Sync

/-!
# What the sync gives to its parsers

The keys of the cache tell the addresses of a run apart as long as the ids are plain, so a traced cache answers
with what was sent for that address. Over any history of runs, whole, failed or killed between two CVEs, each row
of a run is made of a document that a tracker sent for its CVE, fetched by the run or no older than its TTL.
-/

namespace ZeroTrust

open Function (update)

/-- An id without the characters that the cache replaces, and without tabs and newlines. -/
def PlainId (cve : Text) : Prop := ∀ c ∈ cve, c ≠ 9 ∧ c ≠ 10 ∧ c ≠ 47 ∧ c ≠ 58 ∧ c ≠ 63

instance (cve : Text) : Decidable (PlainId cve) := inferInstanceAs (Decidable (∀ c ∈ cve, _))

/-- The addresses that a run fetches. -/
inductive SyncUrl : Text → Prop
  | debian : SyncUrl debianUrl
  | ubuntu {cve : Text} (plain : PlainId cve) : SyncUrl (ubuntuUrl cve)

/-- A text without a colon has no scheme. -/
theorem replaceScheme_of_not_mem {t : Text} (h : 58 ∉ t) : replaceScheme t = t := by
  induction t with
  | nil => rfl
  | cons c t ih =>
    obtain ⟨hc, ht⟩ := not_or.mp (List.mem_cons.not.mp h)
    rw [replaceScheme, ih ht]
    rintro rest rfl
    exact absurd rfl hc

/-- The file of a secure address: its signs are replaced. -/
theorem cacheKey_https {t : Text} (h : 58 ∉ t) :
    cacheKey (text "https://" ++ t) = text "https_" ++ t.map fun c => if c = 47 ∨ c = 58 ∨ c = 63 then 95 else c := by
  show (replaceScheme (104 :: 116 :: 116 :: 112 :: 115 :: 58 :: 47 :: 47 :: t)).map _ = _
  simp only [replaceScheme, replaceScheme_of_not_mem h]
  rfl

/-- The file of a record. -/
theorem cacheKey_ubuntuUrl {cve : Text} (h : PlainId cve) :
    cacheKey (ubuntuUrl cve) = text "https_ubuntu.com_security_cves_" ++ cve ++ text ".json" := by
  have hurl : ubuntuUrl cve = text "https://" ++ (text "ubuntu.com/security/cves/" ++ cve ++ text ".json") := by
    simp [ubuntuUrl, text]
  have hcolon : 58 ∉ text "ubuntu.com/security/cves/" ++ cve ++ text ".json" := by
    simp only [List.mem_append, not_or]
    exact ⟨⟨by decide, fun hmem => (h 58 hmem).2.2.2.1 rfl⟩, by decide⟩
  have hcve : cve.map (fun c => if c = 47 ∨ c = 58 ∨ c = 63 then 95 else c) = cve := by
    refine (List.map_congr_left fun c hc => ?_).trans (List.map_id cve)
    obtain ⟨-, -, hslash, hcolon, hquestion⟩ := h c hc
    exact if_neg (by simp [hslash, hcolon, hquestion])
  rw [hurl, cacheKey_https hcolon, List.map_append, List.map_append, hcve]
  simp [text]

/-- The file of the dump. -/
theorem cacheKey_debianUrl : cacheKey debianUrl = text "https_security-tracker.debian.org_tracker_data_json" := by
  decide +kernel

/-- Different addresses have different files. -/
theorem SyncUrl.eq_of_cacheKey {url url' : Text} (h : SyncUrl url) (h' : SyncUrl url')
    (hkey : cacheKey url = cacheKey url') : url = url' := by
  have hother {cve : Text} : text "https_ubuntu.com_security_cves_" ++ cve ++ text ".json" ≠
      text "https_security-tracker.debian.org_tracker_data_json" := by
    intro heq
    have hletter := congrArg (fun t : Text => t[6]?) heq
    simp [text] at hletter
  cases h with
  | debian =>
    cases h' with
    | debian => rfl
    | ubuntu plain =>
      rw [cacheKey_debianUrl, cacheKey_ubuntuUrl plain] at hkey
      exact absurd hkey.symm hother
  | ubuntu plain =>
    cases h' with
    | debian =>
      rw [cacheKey_debianUrl, cacheKey_ubuntuUrl plain] at hkey
      exact absurd hkey hother
    | ubuntu plain' =>
      rw [cacheKey_ubuntuUrl plain, cacheKey_ubuntuUrl plain', List.append_left_inj, List.append_right_inj] at hkey
      rw [hkey]

variable {trackers : Trackers}

/-- The cache is traced, and the replies were sent by the trackers to the addresses of runs. -/
structure SyncState.Sound (trackers : Trackers) (st : SyncState) : Prop where
  traced : Traced (fun r : Reply => cacheKey r.url) (fun r => ⟨r.data, r.time⟩) st.replies st.cache
  urls : ∀ r ∈ st.replies, SyncUrl r.url
  sent : ∀ r ∈ st.replies, r.data = [] ∨ ∃ n, trackers.answer n r.url = .document r.data

/-- An empty cache is sound. -/
theorem sound_initial : ({} : SyncState).Sound trackers where
  traced := traced_empty
  urls := nofun
  sent := nofun

/-- A request leaves the cache sound. -/
theorem SyncState.Sound.request {st : SyncState} (h : st.Sound trackers) : (st.request trackers).Sound trackers :=
  ⟨h.traced, h.urls, h.sent⟩

/-- Storing what was answered leaves it sound. -/
theorem SyncState.Sound.store {st : SyncState} (h : st.Sound trackers) {url data : Text} (hurl : SyncUrl url)
    (hsent : data = [] ∨ ∃ n, trackers.answer n url = .document data) : (st.store url data).Sound trackers where
  traced := (h.traced.receive _).store (r := (⟨url, data, st.clock⟩ : Reply)) (by simp)
  urls := by
    simp only [SyncState.store, List.forall_mem_append, List.forall_mem_singleton]
    exact ⟨h.urls, hurl⟩
  sent := by
    simp only [SyncState.store, List.forall_mem_append, List.forall_mem_singleton]
    exact ⟨h.sent, hsent⟩

/-- Time passes, and replies are added. -/
structure SyncState.Extends (trackers : Trackers) (st st' : SyncState) : Prop where
  clock : st.clock ≤ st'.clock
  replies : st.replies ⊆ st'.replies
  sound : st.Sound trackers → st'.Sound trackers

/-- Nothing changes. -/
theorem SyncState.Extends.refl (st : SyncState) : st.Extends trackers st := ⟨le_rfl, List.Subset.refl _, id⟩

/-- One part of a run after the other. -/
theorem SyncState.Extends.trans (st st' st'' : SyncState) (h : st.Extends trackers st')
    (h' : st'.Extends trackers st'') : st.Extends trackers st'' :=
  ⟨h.clock.trans h'.clock, List.Subset.trans h.replies h'.replies, h'.sound ∘ h.sound⟩

/-- A part of a run, whether it ends or fails. -/
abbrev Extending (trackers : Trackers) {α : Type} (p : Sync α) : Prop :=
  Effect.Spec (SyncState.Extends trackers) (fun _ => True) (fun _ => True) p

/-- A value changes nothing. -/
theorem extending_pure {α : Type} (a : α) : Extending trackers (pure a : Sync α) := Effect.spec_pure .refl a

/-- Neither does a parser. -/
theorem extending_orRaise {α : Type} (e : SyncError) (o : Option α) : Extending trackers (orRaise e o) := by
  cases o with
  | none => exact Effect.spec_throw .refl trivial
  | some a => exact extending_pure a

/-- A document is fetched, or taken from the cache. -/
theorem extending_get (f : Fetcher) {url : Text} (hurl : SyncUrl url) : Extending trackers (f.get trackers url) := by
  have hlater (st : SyncState) : st.clock ≤ st.clock + trackers.delay st.requests := Nat.le_add_right _ _
  apply Effect.spec_of_state
  intro st
  unfold Fetcher.get
  split
  · exact .refl st
  · split
    · next data hanswer =>
      exact ⟨hlater st, List.subset_append_left _ _, fun h => h.request.store hurl (.inr ⟨_, hanswer⟩)⟩
    · exact ⟨hlater st, List.subset_append_left _ _, fun h => h.request.store hurl (.inl rfl)⟩
    · exact ⟨hlater st, List.Subset.refl _, SyncState.Sound.request⟩
    · exact ⟨hlater st, List.Subset.refl _, SyncState.Sound.request⟩

/-- A reply that a run may use: fetched by itself, or unless it is forced to fetch, no older than its TTL. -/
def Fetcher.Recent (f : Fetcher) (start time : ℕ) : Prop :=
  start ≤ time ∨ f.force = false ∧ (start : ℤ) - time < f.ttl

/-- A reply that is recent for a later part is recent for the run. -/
theorem Fetcher.Recent.earlier {f : Fetcher} {start now time : ℕ} (h : f.Recent now time) (hle : start ≤ now) :
    f.Recent start time := by
  rcases h with h | ⟨hforce, h⟩
  · exact .inl (hle.trans h)
  · exact .inr ⟨hforce, by omega⟩

/-- A document as a tracker has sent it, or as `read_text` gives it back. -/
structure Reply.Gives (trackers : Trackers) (r : Reply) (given : Text) : Prop where
  text : given = r.data ∨ given = universalNewlines r.data
  sent : ∃ n, trackers.answer n r.url = .document r.data

/-- What `get` returns was sent for that address, and recently. -/
theorem Fetcher.get_eq_ok {f : Fetcher} {url data : Text} {st st' : SyncState} (hs : st.Sound trackers)
    (hurl : SyncUrl url) (h : f.get trackers url st = .ok (some data) st') (hne : data ≠ []) :
    ∃ r ∈ st'.replies, r.url = url ∧ f.Recent st.clock r.time ∧ r.Gives trackers data := by
  unfold Fetcher.get at h
  split at h
  · next file hfile =>
    cases h
    unfold Fetcher.cached at hfile
    split at hfile
    · cases hfile
    · next hforce =>
      obtain ⟨hcached, hfresh⟩ := Option.filter_eq_some_iff.mp hfile
      obtain ⟨r, hr, hkey, rfl⟩ := hs.traced _ _ hcached
      refine ⟨r, hr, (hs.urls r hr).eq_of_cacheKey hurl hkey, .inr ⟨Bool.eq_false_iff.mpr hforce, ?_⟩, .inr rfl, ?_⟩
      · exact of_decide_eq_true hfresh
      · refine (hs.sent r hr).resolve_left fun hempty => hne ?_
        show universalNewlines r.data = []
        rw [hempty, universalNewlines]
  · split at h
    · next answered hanswer =>
      cases h
      refine ⟨⟨url, data, _⟩, List.mem_append_right _ (List.mem_singleton_self _), rfl, .inl ?_, .inl rfl, _, hanswer⟩
      exact Nat.le_add_right _ _
    · cases h
    · cases h
    · cases h

variable {opts : SyncOptions} {st st' : SyncState}

/-- So is a document for a parser. -/
theorem extending_document {url : Text} (hurl : SyncUrl url) : Extending trackers (opts.document trackers url) :=
  Effect.Spec.bind .trans (extending_get opts.fetcher hurl) fun _ => extending_pure _

/-- A document for a parser was sent for its address, and recently. -/
theorem SyncOptions.document_eq_ok {url data : Text} (hs : st.Sound trackers) (hurl : SyncUrl url)
    (h : opts.document trackers url st = .ok (some data) st') :
    ∃ r ∈ st'.replies, r.url = url ∧ opts.fetcher.Recent st.clock r.time ∧ r.Gives trackers data := by
  obtain ⟨blob, t, hget, h⟩ := Effect.exists_of_bind_run_ok h
  cases blob with
  | none => cases h
  | some blob =>
    by_cases hempty : blob = []
    · rw [hempty] at h
      cases h
    · have hkeep : (some blob).filter (· ≠ []) = some blob := by simp [hempty]
      rw [hkeep] at h
      cases h
      exact opts.fetcher.get_eq_ok hs hurl hget hempty

/-- Fetching the record of a CVE. -/
theorem extending_ubuntuRows {cve : Text} (hcve : PlainId cve) : Extending trackers (opts.ubuntuRows trackers cve) := by
  unfold SyncOptions.ubuntuRows
  refine .ite (Effect.Spec.bind .trans (extending_document (.ubuntu hcve)) fun blob => ?_) (extending_pure [])
  cases blob with
  | none => exact extending_pure []
  | some blob => exact extending_orRaise _ _

/-- The index is not fetched again. -/
theorem extending_debianRows (index : List (Text × Text × TrackerValue)) (cve : Text) :
    Extending trackers (opts.debianRows index cve) :=
  Effect.Spec.ite (extending_orRaise _ _) (extending_pure [])

/-- Fetching the dump. -/
theorem extending_debianIndex : Extending trackers (opts.debianIndex trackers) := by
  unfold SyncOptions.debianIndex
  refine .ite (Effect.Spec.bind .trans (extending_document .debian) fun blob => ?_) (extending_pure [])
  cases blob with
  | none => exact extending_pure []
  | some blob => exact extending_pure _

/-- A pause takes time. -/
theorem extending_pause : Extending trackers (pauseSync trackers) :=
  Effect.spec_modify fun _ => ⟨Nat.le_add_right _ _, List.Subset.refl _, fun h => ⟨h.traced, h.urls, h.sent⟩⟩

/-- The loop over the CVEs. -/
theorem extending_syncCves {index : List (Text × Text × TrackerValue)} {cves : List Text}
    (hcves : ∀ cve ∈ cves, PlainId cve) : Extending trackers (opts.syncCves trackers index cves) := by
  induction cves with
  | nil => exact extending_pure []
  | cons cve cves ih =>
    obtain ⟨hcve, hcves⟩ := List.forall_mem_cons.mp hcves
    refine Effect.Spec.bind .trans (extending_ubuntuRows hcve) fun ubuntu => ?_
    refine Effect.Spec.bind .trans (extending_debianRows index cve) fun debian => ?_
    refine Effect.Spec.bind .trans extending_pause fun _ => ?_
    exact Effect.Spec.bind .trans (ih hcves) fun rows => extending_pure _

/-- A whole run. -/
theorem extending_allRows {cves : List Text} (hcves : ∀ cve ∈ cves, PlainId cve) :
    Extending trackers (opts.allRows trackers cves) :=
  Effect.Spec.bind .trans extending_debianIndex fun _ => extending_syncCves hcves

/-- The parsers make the row for the CVE from a document. -/
def SyncOptions.Makes (opts : SyncOptions) (url cve given : Text) (row : FixRow) : Prop :=
  ∃ rows, some row ∈ rows ∧
    (url = ubuntuUrl cve ∧ parseUbuntu opts.convert cve (opts.parse given) = some rows ∨
      url = debianUrl ∧
        rowsFromDebianIndex opts.convert cve (buildDebianIndex opts.convert (opts.parse given)) = some rows)

/-- A row that is made of a recent document for its CVE. -/
def SyncOptions.Sourced (opts : SyncOptions) (trackers : Trackers) (start : ℕ) (replies : List Reply) (cve : Text)
    (row : FixRow) : Prop :=
  ∃ r ∈ replies, opts.fetcher.Recent start r.time ∧ ∃ given, r.Gives trackers given ∧ opts.Makes r.url cve given row

/-- A row keeps its document when replies are added. -/
theorem SyncOptions.Sourced.mono {start start' : ℕ} {replies replies' : List Reply} {cve : Text} {row : FixRow}
    (h : opts.Sourced trackers start replies cve row) (hle : start' ≤ start) (hsub : replies ⊆ replies') :
    opts.Sourced trackers start' replies' cve row := by
  obtain ⟨r, hr, hrecent, hmade⟩ := h
  exact ⟨r, hsub hr, hrecent.earlier hle, hmade⟩

/-- An index that is empty or made of a recent dump. -/
def SyncOptions.IndexSourced (opts : SyncOptions) (trackers : Trackers) (start : ℕ) (replies : List Reply)
    (index : List (Text × Text × TrackerValue)) : Prop :=
  index = [] ∨ ∃ r ∈ replies, r.url = debianUrl ∧ opts.fetcher.Recent start r.time ∧ ∃ given, r.Gives trackers given ∧
    index = buildDebianIndex opts.convert (opts.parse given)

/-- A parser that has not failed. -/
theorem orRaise_eq_ok {α : Type} {e : SyncError} {o : Option α} {a : α} (h : orRaise e o st = .ok a st') :
    o = some a ∧ st = st' := by
  cases o with
  | none => cases h
  | some b =>
    cases h
    exact ⟨rfl, rfl⟩

/-- A row of Ubuntu is made of the record of the CVE. -/
theorem ubuntuRows_sourced {cve : Text} (hs : st.Sound trackers) (hcve : PlainId cve) {rows : List (Option FixRow)}
    (h : opts.ubuntuRows trackers cve st = .ok rows st') :
    ∀ row, some row ∈ rows → opts.Sourced trackers st.clock st'.replies cve row := by
  unfold SyncOptions.ubuntuRows at h
  split at h
  · obtain ⟨blob, t, hdocument, h⟩ := Effect.exists_of_bind_run_ok h
    cases blob with
    | none =>
      cases h
      exact nofun
    | some blob =>
      obtain ⟨r, hr, hurl, hrecent, hgives⟩ := opts.document_eq_ok hs (.ubuntu hcve) hdocument
      obtain ⟨hparse, rfl⟩ := orRaise_eq_ok h
      intro row hrow
      exact ⟨r, hr, hrecent, blob, hgives, rows, hrow, .inl ⟨hurl, hparse⟩⟩
  · cases h
    exact nofun

/-- A row of Debian is made of the dump. -/
theorem debianRows_sourced {index : List (Text × Text × TrackerValue)} {cve : Text} {rows : List (Option FixRow)}
    {start : ℕ} (hindex : opts.IndexSourced trackers start st.replies index)
    (h : opts.debianRows index cve st = .ok rows st') :
    ∀ row, some row ∈ rows → opts.Sourced trackers start st.replies cve row := by
  unfold SyncOptions.debianRows at h
  split at h
  · next hdebian =>
    obtain ⟨r, hr, hurl, hrecent, given, hgives, rfl⟩ := hindex.resolve_left hdebian.2
    intro row hrow
    exact ⟨r, hr, hrecent, given, hgives, rows, hrow, .inr ⟨hurl, (orRaise_eq_ok h).1⟩⟩
  · cases h
    exact nofun

/-- The index is made of the dump. -/
theorem debianIndex_sourced {index : List (Text × Text × TrackerValue)} (hs : st.Sound trackers)
    (h : opts.debianIndex trackers st = .ok index st') :
    opts.IndexSourced trackers st.clock st'.replies index := by
  unfold SyncOptions.debianIndex at h
  split at h
  · obtain ⟨blob, t, hdocument, h⟩ := Effect.exists_of_bind_run_ok h
    cases blob with
    | none =>
      cases h
      exact .inl rfl
    | some blob =>
      obtain ⟨r, hr, hurl, hrecent, hgives⟩ := opts.document_eq_ok hs .debian hdocument
      cases h
      exact .inr ⟨r, hr, hurl, hrecent, blob, hgives, rfl⟩
  · cases h
    exact .inl rfl

/-- The state behind a part that has returned. -/
theorem Extending.of_ok {α : Type} {p : Sync α} (h : Extending trackers p) {a : α} (hp : p st = .ok a st') :
    st.Extends trackers st' := by
  have hstate := Effect.Spec.state h st
  rwa [hp] at hstate

/-- Each row of the loop is made of a document for one of its CVEs. -/
theorem syncCves_sourced {index : List (Text × Text × TrackerValue)} {start : ℕ} {cves : List Text}
    {rows : List (Option FixRow)} (hs : st.Sound trackers) (hstart : start ≤ st.clock)
    (hindex : opts.IndexSourced trackers start st.replies index) (hcves : ∀ cve ∈ cves, PlainId cve)
    (h : opts.syncCves trackers index cves st = .ok rows st') :
    ∀ row, some row ∈ rows → ∃ cve ∈ cves, opts.Sourced trackers start st'.replies cve row := by
  induction cves generalizing st rows with
  | nil =>
    cases h
    exact nofun
  | cons cve cves ih =>
    obtain ⟨hcve, hcves⟩ := List.forall_mem_cons.mp hcves
    obtain ⟨ubuntu, st₁, hubuntu, h⟩ := Effect.exists_of_bind_run_ok h
    obtain ⟨debian, st₂, hdebian, h⟩ := Effect.exists_of_bind_run_ok h
    obtain ⟨_, st₃, hpause, h⟩ := Effect.exists_of_bind_run_ok h
    obtain ⟨rest, st₄, hrest, h⟩ := Effect.exists_of_bind_run_ok h
    cases h
    have h₁ := (extending_ubuntuRows hcve).of_ok hubuntu
    have h₂ : st₁.Extends trackers st₂ := (extending_debianRows index cve).of_ok hdebian
    have h₃ : st₂.Extends trackers st₃ := extending_pause.of_ok hpause
    have h₄ := (extending_syncCves hcves).of_ok hrest
    have hindex' : ∀ {replies}, st.replies ⊆ replies → opts.IndexSourced trackers start replies index := fun hsub =>
      hindex.imp id fun ⟨r, hr, hdump⟩ => ⟨r, hsub hr, hdump⟩
    have h₁₃ := h₁.trans _ _ _ (h₂.trans _ _ _ h₃)
    intro row hrow
    rcases List.mem_append.mp hrow with hrow | hrow
    · rcases List.mem_append.mp hrow with hrow | hrow
      · have hsub := ((h₂.trans _ _ _ h₃).trans _ _ _ h₄).replies
        exact ⟨cve, List.mem_cons_self, (ubuntuRows_sourced hs hcve hubuntu row hrow).mono hstart hsub⟩
      · have hsub := ((h₂.trans _ _ _ h₃).trans _ _ _ h₄).replies
        exact ⟨cve, List.mem_cons_self, (debianRows_sourced (hindex' h₁.replies) hdebian row hrow).mono le_rfl hsub⟩
    · obtain ⟨cve', hcve', hsourced⟩ := ih (h₁₃.sound hs) (hstart.trans h₁₃.clock) (hindex' h₁₃.replies) hcves hrest
        row hrow
      exact ⟨cve', List.mem_cons_of_mem cve hcve', hsourced⟩

/-- Each row of a run is made of a document for one of its CVEs that the run has fetched, or that is no older than
its TTL. -/
theorem allRows_sourced {cves : List Text} {rows : List (Option FixRow)} (hs : st.Sound trackers)
    (hcves : ∀ cve ∈ cves, PlainId cve) (h : opts.allRows trackers cves st = .ok rows st') :
    ∀ row, some row ∈ rows → ∃ cve ∈ cves, opts.Sourced trackers st.clock st'.replies cve row := by
  obtain ⟨index, st₁, hindex, h⟩ := Effect.exists_of_bind_run_ok h
  have h₁ := extending_debianIndex.of_ok hindex
  exact syncCves_sourced (h₁.sound hs) h₁.clock (debianIndex_sourced hs hindex) hcves h

/-- Runs, and the time between them. -/
inductive SyncEvent
  | run (opts : SyncOptions) (cves : List Text)
  | wait (time : ℕ)

/-- What an event leaves on disk. A run that is killed between two CVEs is one of fewer CVEs. -/
def SyncState.step (trackers : Trackers) (st : SyncState) : SyncEvent → Option SyncState
  | .run opts cves => some (opts.allRows trackers cves st).state
  | .wait time => some { st with clock := st.clock + time }

/-- The ids of a run are plain. -/
def SyncEvent.Plain : SyncEvent → Prop
  | .run _ cves => ∀ cve ∈ cves, PlainId cve
  | .wait _ => True

/-- A history of runs on an empty cache. -/
def SyncHistory (trackers : Trackers) (trace : List SyncEvent) (st : SyncState) : Prop :=
  Run (SyncState.step trackers) {} trace st ∧ ∀ e ∈ trace, e.Plain

/-- The cache is sound after every history. -/
theorem SyncHistory.sound {trace : List SyncEvent} (h : SyncHistory trackers trace st) : st.Sound trackers := by
  obtain ⟨run, hplain⟩ := h
  induction run with
  | nil => exact sound_initial
  | @next trace s s' e run taken ih =>
    obtain ⟨hbefore, he⟩ := List.forall_mem_append.mp hplain
    have hs := ih hbefore
    cases e with
    | run opts cves =>
      cases taken
      have hcves := List.forall_mem_singleton.mp he
      exact ((extending_allRows hcves).state s).sound hs
    | wait time =>
      cases taken
      exact ⟨hs.traced, hs.urls, hs.sent⟩

end ZeroTrust
