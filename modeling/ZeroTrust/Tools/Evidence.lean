import ZeroTrust.Scan.Cve
import ZeroTrust.Tools.Unchanged

/-!
# From a verdict back to the trackers

What `load_distro_fixes` makes of a written table whatever the trackers put into its fields: a row that a newline
cuts apart is dropped or loses the end of its status, and no other row comes out of it. So a finding that is
marked as not vulnerable rests on a row of the table, and the row on a document that a tracker sent for the CVE.
-/

namespace ZeroTrust

section Lines

variable {d : Byte}

/-- Lines end at the delimiter. -/
theorem getlines_append_delimiter (s rest : Bytes) :
    getlines d (s ++ d :: rest) = getlines d (s ++ [d]) ++ getlines d rest := by
  have hne (s : Bytes) : getlines d (s ++ [d]) ≠ [] := by
    cases s with
    | nil => simp [getlines]
    | cons c s =>
      rw [List.cons_append, getlines]
      split
      · exact List.cons_ne_nil _ _
      · split <;> exact List.cons_ne_nil _ _
  induction s with
  | nil => simp [getlines]
  | cons c s ih =>
    rw [List.cons_append, List.cons_append, getlines, getlines, ih]
    split
    · rfl
    · obtain ⟨line, lines, hlines⟩ := List.exists_cons_of_ne_nil (hne s)
      rw [hlines]
      rfl

/-- Delimited parts are taken apart one by one. -/
theorem getlines_flatMap_delimited (parts : List Bytes) :
    getlines d (parts.flatMap (· ++ [d])) = parts.flatMap fun s => getlines d (s ++ [d]) := by
  induction parts with
  | nil => rfl
  | cons s parts ih =>
    rw [List.flatMap_cons, List.flatMap_cons, List.append_assoc, List.singleton_append, getlines_append_delimiter, ih]

/-- There is at most one line more than there are delimiters. -/
theorem length_getlines_le (s : Bytes) : (getlines d s).length ≤ s.count d + 1 := by
  induction s with
  | nil => exact Nat.zero_le _
  | cons c s ih =>
    rw [getlines]
    split
    · next hc => simpa [hc] using ih
    · next hc =>
      rw [List.count_cons_of_ne hc]
      split
      · exact Nat.le_add_left _ _
      · next line lines hlines => rwa [hlines] at ih

/-- A text that starts with a field and goes beyond it. -/
theorem cut_field {field s tail rest : Bytes} (hfield : d ∉ field) (hs : d ∈ s)
    (h : s ++ tail = field ++ d :: rest) : ∃ s', s = field ++ d :: s' ∧ s' ++ tail = rest := by
  rcases List.append_eq_append_iff.mp h with ⟨between, hbetween, -⟩ | ⟨between, hbetween, hrest⟩
  · exact absurd (hbetween ▸ List.mem_append_left between hs) hfield
  · cases between with
    | nil =>
      rw [hbetween, List.append_nil] at hs
      exact absurd hs hfield
    | cons c between =>
      rw [List.cons_append, List.cons.injEq] at hrest
      exact ⟨between, hrest.1 ▸ hbetween, hrest.2.symm⟩

/-- Behind a field, one delimiter less is left. -/
theorem cut_counted {field s tail rest : Bytes} {n : ℕ} (hfield : d ∉ field) (hs : n + 1 ≤ s.count d)
    (h : s ++ tail = field ++ d :: rest) : ∃ s', s = field ++ d :: s' ∧ n ≤ s'.count d ∧ s' ++ tail = rest := by
  have hmem : d ∈ s := List.count_pos_iff.mp (Nat.lt_of_lt_of_le n.succ_pos hs)
  obtain ⟨s', rfl, hrest⟩ := cut_field hfield hmem h
  rw [List.count_append, List.count_eq_zero_of_not_mem hfield, List.count_cons_self] at hs
  exact ⟨s', rfl, by omega, hrest⟩

/-- Another byte, which is not in the field, stands behind the field. -/
theorem cut_before {e : Byte} {field s tail rest : Bytes} (hne : e ≠ d) (hfield : e ∉ field)
    (h : s ++ e :: tail = field ++ d :: rest) : ∃ s', s = field ++ d :: s' ∧ s' ++ e :: tail = rest := by
  rcases List.append_eq_append_iff.mp h with ⟨between, hbetween, hrest⟩ | ⟨between, hbetween, hrest⟩
  · cases between with
    | nil => exact absurd (List.cons.inj hrest).1 hne
    | cons c between =>
      rw [List.cons_append, List.cons.injEq] at hrest
      exact absurd (hbetween ▸ List.mem_append_right s (hrest.1 ▸ List.mem_cons_self)) hfield
  · cases between with
    | nil => exact absurd (List.cons.inj hrest).1.symm hne
    | cons c between =>
      rw [List.cons_append, List.cons.injEq] at hrest
      exact ⟨between, hrest.1 ▸ hbetween, hrest.2.symm⟩

end Lines

/-- The bytes of the fields of a row. -/
structure RowFields where
  cve : Bytes
  distro : Bytes
  release : Bytes
  package : Bytes
  fixedVersion : Bytes
  status : Bytes
  sourceUrl : Bytes

namespace RowFields

/-- The row in the file. -/
def line (fields : RowFields) : Bytes :=
  fields.cve ++ 9 :: (fields.distro ++ 9 :: (fields.release ++ 9 :: (fields.package ++ 9 ::
    (fields.fixedVersion ++ 9 :: (fields.status ++ 9 :: fields.sourceUrl)))))

/-- The row that can be read: a status ends at a newline. -/
def fix (fields : RowFields) : DistroFix where
  cve := fields.cve
  distro := toLower fields.distro
  release := fields.release
  package := fields.package
  fixedVersion := fields.fixedVersion
  status := toLower (fields.status.takeWhile (· ≠ 10))

/-- No field has a tab, and the id and the distribution have no newline. -/
structure Clean (fields : RowFields) : Prop where
  cve : 9 ∉ fields.cve ∧ 10 ∉ fields.cve
  distro : 9 ∉ fields.distro ∧ 10 ∉ fields.distro
  release : 9 ∉ fields.release
  package : 9 ∉ fields.package
  fixedVersion : 9 ∉ fields.fixedVersion
  status : 9 ∉ fields.status
  sourceUrl : 9 ∉ fields.sourceUrl

variable {fields : RowFields} {s tail : Bytes} {fix : DistroFix}

/-- A clean row has six tabs. -/
theorem Clean.count_line (h : fields.Clean) : fields.line.count 9 = 6 := by
  simp [line, List.count_append, List.count_eq_zero_of_not_mem h.cve.1, List.count_eq_zero_of_not_mem h.distro.1,
    List.count_eq_zero_of_not_mem h.release, List.count_eq_zero_of_not_mem h.package,
    List.count_eq_zero_of_not_mem h.fixedVersion, List.count_eq_zero_of_not_mem h.status,
    List.count_eq_zero_of_not_mem h.sourceUrl]

/-- A line that is read has six fields. -/
theorem count_of_parseDistroFix (h : parseDistroFix s = some fix) : 5 ≤ s.count 9 := by
  unfold parseDistroFix at h
  split at h
  · cases h
  · split at h
    · next hfields =>
      have hlength := length_getlines_le (d := 9) s
      rw [splitByTab] at hfields
      rw [hfields] at hlength
      simp only [List.length_cons] at hlength
      omega
    · cases h

/-- What is left of a line behind the fixed version is the status up to a newline, or the status and the address. -/
theorem status_read {status url z first : Bytes} {rest : List Bytes} (hstatus : (9 : Byte) ∉ status)
    (hz : z ++ tail = status ++ 9 :: url) (hplain : (10 : Byte) ∉ z) (htail : tail = [] ∨ ∃ rest, tail = 10 :: rest)
    (hfields : getlines 9 z = first :: rest) : first = status.takeWhile (· ≠ 10) := by
  have hwhole {t : Bytes} (ht : (10 : Byte) ∉ t) : t.takeWhile (· ≠ 10) = t := by
    rw [List.takeWhile_eq_self_iff]
    intro c hc
    exact decide_eq_true fun heq => ht (heq ▸ hc)
  by_cases htab : (9 : Byte) ∈ z
  · obtain ⟨z', rfl, -⟩ := cut_field hstatus htab hz
    rw [getlines_append_cons hstatus, List.cons.injEq] at hfields
    rw [← hfields.1, hwhole fun hmem => hplain (List.mem_append_left _ hmem)]
  · have hne : z ≠ [] := by
      rintro rfl
      cases hfields
    rw [getlines_of_not_mem htab hne, List.cons.injEq] at hfields
    obtain rfl := hfields.1
    rcases htail with rfl | ⟨after, rfl⟩
    · rw [List.append_nil] at hz
      exact absurd (hz ▸ List.mem_append_right status List.mem_cons_self) htab
    · by_cases hnewline : (10 : Byte) ∈ status
      · obtain ⟨before, behind, rfl, hbefore⟩ := exists_of_mem_first hnewline
        rw [List.append_assoc, List.cons_append] at hz
        obtain ⟨rfl, -⟩ := append_separator_inj hplain hbefore hz
        rw [List.takeWhile_append, hwhole hbefore]
        simp
      · obtain ⟨z', rfl, -⟩ := cut_before (by decide) hnewline hz
        exact absurd (List.mem_append_right status List.mem_cons_self) htab

/-- What is read of the first line of a row, where `tail` is what follows it. -/
theorem Clean.parse_first (h : fields.Clean) (hline : s ++ tail = fields.line) (hs : 10 ∉ s)
    (htail : tail = [] ∨ ∃ rest, tail = 10 :: rest) (hparse : parseDistroFix s = some fix) : fix = fields.fix := by
  have htabs := count_of_parseDistroFix hparse
  obtain ⟨s₁, rfl, htabs, h₁⟩ := cut_counted h.cve.1 htabs hline
  obtain ⟨s₂, rfl, htabs, h₂⟩ := cut_counted h.distro.1 htabs h₁
  obtain ⟨s₃, rfl, htabs, h₃⟩ := cut_counted h.release htabs h₂
  obtain ⟨s₄, rfl, htabs, h₄⟩ := cut_counted h.package htabs h₃
  obtain ⟨z, rfl, -, hz⟩ := cut_counted h.fixedVersion htabs h₄
  have hplain : (10 : Byte) ∉ z := fun hmem => hs (by simp [hmem])
  unfold parseDistroFix at hparse
  split at hparse
  · cases hparse
  · rw [splitByTab, getlines_append_cons h.cve.1, getlines_append_cons h.distro.1, getlines_append_cons h.release,
      getlines_append_cons h.package, getlines_append_cons h.fixedVersion] at hparse
    split at hparse
    · next hfields =>
      simp only [List.cons.injEq] at hfields
      obtain ⟨hcve, hdistro, hrelease, hpackage, hversion, hrest⟩ := hfields
      cases hparse
      rw [status_read h.status hz hplain htail hrest, ← hcve, ← hdistro, ← hrelease, ← hpackage, ← hversion]
      rfl
    · cases hparse

/-- Of a row, nothing else is read than the row. -/
theorem Clean.parse_line (h : fields.Clean) (hs : s ∈ getlines 10 (fields.line ++ [10]))
    (hparse : parseDistroFix s = some fix) : fix = fields.fix := by
  by_cases hnewline : (10 : Byte) ∈ fields.line
  · obtain ⟨first, rest, hline, hfirst⟩ := exists_of_mem_first hnewline
    rw [hline, List.append_assoc, List.cons_append, getlines_append_cons hfirst] at hs
    rcases List.mem_cons.mp hs with rfl | hs
    · exact h.parse_first hline.symm hfirst (.inr ⟨rest, rfl⟩) hparse
    · -- the id and the distribution stand in the first line, so too few tabs are left
      exfalso
      have hcount := h.count_line
      rw [hline, List.count_append, List.count_cons_of_ne (by decide)] at hcount
      have htabs := count_of_parseDistroFix hparse
      have hsub : s.count 9 ≤ rest.count 9 := by simpa using (sublist_of_mem_getlines hs).count_le 9
      obtain ⟨between, hbetween, hrest⟩ := cut_before (by decide) h.cve.2 hline.symm
      obtain ⟨between', hbetween', -⟩ := cut_before (by decide) h.distro.2 hrest
      rw [hbetween, hbetween', List.count_append, List.count_cons_self, List.count_append, List.count_cons_self]
        at hcount
      omega
  · rw [getlines_append_cons hnewline, getlines, List.mem_singleton] at hs
    subst hs
    exact h.parse_first (List.append_nil _) hnewline (.inl rfl) hparse

end RowFields

/-- A row with the bytes of its fields. -/
structure FixRow.EncodedAs (row : FixRow) (fields : RowFields) : Prop where
  cve : utf8 (blankTabs row.cve) = some fields.cve
  distro : utf8 (blankTabs row.distro) = some fields.distro
  release : utf8 (blankTabs row.release) = some fields.release
  package : utf8 (blankTabs row.package) = some fields.package
  fixedVersion : utf8 (blankTabs row.fixedVersion) = some fields.fixedVersion
  status : utf8 (blankTabs row.status) = some fields.status
  sourceUrl : utf8 (blankTabs row.sourceUrl) = some fields.sourceUrl

/-- The text on each side of a tab is encoded on its own. -/
theorem utf8_tab {t rest : Text} {bytes : Bytes} (h : utf8 (t ++ 9 :: rest) = some bytes) :
    ∃ field other, utf8 t = some field ∧ utf8 rest = some other ∧ bytes = field ++ 9 :: other := by
  rw [utf8_append] at h
  obtain ⟨field, hfield, h⟩ := Option.bind_eq_some_iff.mp h
  obtain ⟨tabbed, htabbed, rfl⟩ := Option.map_eq_some_iff.mp h
  obtain ⟨other, hother, htabbed⟩ := Option.bind_eq_some_iff.mp htabbed
  cases htabbed
  exact ⟨field, other, hfield, hother, rfl⟩

/-- A line that can be encoded is made of the bytes of the fields. -/
theorem exists_fields {row : FixRow} {bytes : Bytes} (h : utf8 (formatRow row) = some bytes) :
    ∃ fields, row.EncodedAs fields ∧ bytes = fields.line := by
  rw [formatRow_eq] at h
  simp only [tabbed_cons] at h
  obtain ⟨cve, _, hcve, h₁, rfl⟩ := utf8_tab h
  obtain ⟨distro, _, hdistro, h₂, rfl⟩ := utf8_tab h₁
  obtain ⟨release, _, hrelease, h₃, rfl⟩ := utf8_tab h₂
  obtain ⟨package, _, hpackage, h₄, rfl⟩ := utf8_tab h₃
  obtain ⟨fixedVersion, _, hversion, h₅, rfl⟩ := utf8_tab h₄
  obtain ⟨status, sourceUrl, hstatus, hurl, rfl⟩ := utf8_tab h₅
  exact ⟨⟨cve, distro, release, package, fixedVersion, status, sourceUrl⟩,
    ⟨hcve, hdistro, hrelease, hpackage, hversion, hstatus, hurl⟩, rfl⟩

/-- The tabs of a field are replaced. -/
theorem tab_not_mem {t : Text} {field : Bytes} (h : utf8 (blankTabs t) = some field) : (9 : Byte) ∉ field := by
  rw [mem_utf8 h (by decide), blankTabs, List.mem_map]
  rintro ⟨c, -, hc⟩
  split_ifs at hc with htab
  · exact absurd hc (by decide)
  · exact htab hc

/-- A field without newline is encoded without one. -/
theorem newline_not_mem {t : Text} {field : Bytes} (ht : 10 ∉ t) (h : utf8 (blankTabs t) = some field) :
    (10 : Byte) ∉ field := by
  rw [mem_utf8 h (by decide), blankTabs, List.mem_map]
  rintro ⟨c, hc, hblank⟩
  split_ifs at hblank with htab
  · exact absurd hblank (by decide)
  · exact ht (by rwa [show c = 10 from hblank] at hc)

/-- The id and the distribution of a row have no newline. -/
structure FixRow.Named (row : FixRow) : Prop where
  cve : 10 ∉ row.cve
  distro : 10 ∉ row.distro

/-- The fields of a named row are clean. -/
theorem FixRow.EncodedAs.clean {row : FixRow} {fields : RowFields} (h : row.EncodedAs fields) (hnamed : row.Named) :
    fields.Clean where
  cve := ⟨tab_not_mem h.cve, newline_not_mem hnamed.cve h.cve⟩
  distro := ⟨tab_not_mem h.distro, newline_not_mem hnamed.distro h.distro⟩
  release := tab_not_mem h.release
  package := tab_not_mem h.package
  fixedVersion := tab_not_mem h.fixedVersion
  status := tab_not_mem h.status
  sourceUrl := tab_not_mem h.sourceUrl

/-- Whatever is in the fields of the rows, everything that the reader loads is read of one of them. -/
theorem exists_row_of_loaded {now : GmTime} {rows : List FixRow} {content : Bytes} {fix : DistroFix}
    (hrows : ∀ row ∈ rows, row.Named) (hcontent : writeOutput now rows = some content)
    (hfix : fix ∈ (loadDistroFixes content).rows) :
    ∃ row ∈ rows, ∃ fields, row.EncodedAs fields ∧ fix = fields.fix := by
  rw [writeOutput_eq, utf8_lines] at hcontent
  obtain ⟨lines, hlines, rfl⟩ := Option.map_eq_some_iff.mp hcontent
  rw [rows_loadDistroFixes, getlines_flatMap_delimited, List.mem_filterMap] at hfix
  obtain ⟨line, hline, hparse⟩ := hfix
  obtain ⟨bytes, hbytes, hline⟩ := List.mem_flatMap.mp hline
  obtain ⟨t, ht, hencoded⟩ := exists_of_mem_mapM hlines hbytes
  rcases List.mem_append.mp ht with ht | ht
  · obtain ⟨hplain, rest, rfl⟩ := headerLines_comment now t ht
    obtain rfl : encoded (35 :: rest) = bytes := Option.some.inj ((utf8_of_plain hplain).symm.trans hencoded)
    rw [getlines_append_cons (newline_not_mem_encoded hplain), getlines, List.mem_singleton] at hline
    rw [hline, parseDistroFix_comment hplain] at hparse
    cases hparse
  · obtain ⟨row, hrow, rfl⟩ := List.mem_map.mp ht
    obtain ⟨fields, hfields, rfl⟩ := exists_fields hencoded
    exact ⟨row, hrow, fields, hfields, (hfields.clean (hrows row hrow)).parse_line hline hparse⟩

/-- A row that names a fixed version which the installed one has reached. -/
structure DistroFix.Reached (fix : DistroFix) (installed : Bytes) : Prop where
  hasFix : fix.status = str "released" ∨ fix.status = str "resolved" ∨ fix.status = str "fixed"
  named : fix.fixedVersion ≠ []
  upstream : dpkgCompareStr (parseDpkgVersion fix.fixedVersion).upstream (parseDpkgVersion installed).upstream = some 0
  revision : ∃ c, 0 ≤ c ∧
    dpkgCompareStr (parseDpkgVersion installed).revision (parseDpkgVersion fix.fixedVersion).revision = some c

/-- A patch is reported for a row that is reached. -/
theorem exists_reached_of_backportScan {distro installed : Bytes} {rows : List DistroFix}
    {result outcome : BackportOutcome} (h : backportScan distro installed rows result = some outcome)
    (hresult : result.patched = false) (hpatched : outcome.patched = true) : ∃ fix ∈ rows, fix.Reached installed := by
  induction rows generalizing result with
  | nil =>
    cases h
    exact absurd hpatched (by simp [hresult])
  | cons fix rows ih =>
    have hlater {result : BackportOutcome} (h : backportScan distro installed rows result = some outcome)
        (hresult : result.patched = false) : ∃ f ∈ fix :: rows, f.Reached installed := by
      obtain ⟨later, hmem, hreached⟩ := ih h hresult
      exact ⟨later, List.mem_cons_of_mem fix hmem, hreached⟩
    rw [backportScan] at h
    split at h
    · exact hlater h hresult
    · split at h
      · exact hlater h hresult
      · next hfix =>
        simp only [Bool.or_eq_true, Bool.not_eq_true', not_or, Bool.not_eq_false, List.isEmpty_iff] at hfix
        obtain ⟨upstream, hupstream, h⟩ := Option.bind_eq_some_iff.mp h
        split at h
        · exact hlater h hresult
        · next hsame =>
          obtain ⟨revision, hrevision, h⟩ := Option.bind_eq_some_iff.mp h
          split at h
          · exact hlater h hresult
          · next hge =>
            rw [not_not.mp hsame] at hupstream
            exact ⟨fix, List.mem_cons_self, (fix.hasFix_iff).mp hfix.1, hfix.2, hupstream, revision, not_lt.mp hge,
              hrevision⟩

/-- The installed version, as `check_backport` puts it together. -/
def Port.installed (port : Port) : Bytes := port.version ++ str "-" ++ (parseDistroTag port.distro).revision

/-- A patch is reported for a row of the table that is stored for the CVE and the distribution. -/
theorem exists_reached_of_checkBackport {table : DistroTable} {cve : Bytes} {port : Port} {outcome : BackportOutcome}
    (h : checkBackport table cve port = some outcome) (hpatched : outcome.patched = true) :
    ∃ fix ∈ table.rows, fix.key = distroFixKey cve (parseDistroTag port.distro).distro ∧
      fix.Reached port.installed := by
  unfold checkBackport at h
  split at h
  · cases h
    cases hpatched
  · dsimp only at h
    split at h
    · cases h
      cases hpatched
    · obtain ⟨fix, hfix, hreached⟩ := exists_reached_of_backportScan h rfl hpatched
      rw [DistroTable.select_eq_filter] at hfix
      obtain ⟨hmem, hkey⟩ := List.mem_filter.mp hfix
      exact ⟨fix, hmem, of_decide_eq_true hkey, hreached⟩

/-- A text without the separator behind its last occurrence can be told from what is before it. -/
theorem append_separator_inj_right {c : Byte} {s t x y : Bytes} (hx : c ∉ x) (hy : c ∉ y)
    (h : s ++ c :: x = t ++ c :: y) : s = t ∧ x = y := by
  have hreverse := congrArg List.reverse h
  simp only [List.reverse_append, List.reverse_cons, List.append_assoc, List.singleton_append] at hreverse
  obtain ⟨hxy, hst⟩ := append_separator_inj (by simpa using hx) (by simpa using hy) hreverse
  exact ⟨List.reverse_injective hst, List.reverse_injective hxy⟩

/-- A row that is made of a document is made for the CVE. -/
theorem SyncOptions.Makes.madeFor {opts : SyncOptions} {url cve given : Text} {row : FixRow}
    (h : opts.Makes url cve given row) : row.MadeFor cve := by
  obtain ⟨rows, hrow, ⟨-, hmade⟩ | ⟨-, hmade⟩⟩ := h
  · exact parseUbuntu_madeFor hmade hrow
  · exact rowsFromDebianIndex_madeFor hmade hrow

/-- A plain id and the distributions have no newline. -/
theorem FixRow.MadeFor.named {row : FixRow} {cve : Text} (h : row.MadeFor cve) (hcve : PlainId cve) : row.Named where
  cve := h.id ▸ fun hmem => (hcve 10 hmem).2.1 rfl
  distro := by
    rcases h.tracker with ⟨heq, -⟩ | ⟨heq, -⟩
    · rw [heq]
      decide
    · rw [heq]
      decide

/-- The fields of a row for a plain id start with the id, and its key with the CVE that is asked for. -/
theorem FixRow.MadeFor.cve_eq {row : FixRow} {cve : Text} {fields : RowFields} {asked distro : Bytes}
    (h : row.MadeFor cve) (hcve : PlainId cve) (hfields : row.EncodedAs fields)
    (hdistro : (124 : Byte) ∉ toLower distro) (hkey : fields.fix.key = distroFixKey asked distro) :
    utf8 cve = some asked ∧ fields.fix.distro = toLower distro := by
  have hblank : blankTabs cve = cve :=
    (List.map_congr_left fun c hc => if_neg (hcve c hc).1).trans (List.map_id cve)
  have htracker : (124 : Byte) ∉ toLower fields.fix.distro := by
    have hencoded := hfields.distro
    show (124 : Byte) ∉ toLower (toLower fields.distro)
    rcases h.tracker with ⟨heq, -⟩ | ⟨heq, -⟩
    · rw [heq] at hencoded
      rw [show fields.distro = str "ubuntu" from (Option.some.inj hencoded).symm]
      decide
    · rw [heq] at hencoded
      rw [show fields.distro = str "debian" from (Option.some.inj hencoded).symm]
      decide
  obtain ⟨hsame, hlower⟩ := append_separator_inj_right htracker hdistro hkey
  have hencoded := hfields.cve
  rw [h.id, hblank] at hencoded
  exact ⟨hsame ▸ hencoded, (toLower_toLower fields.distro).symm.trans hlower⟩

/-- A row whose fixed version the installed one has reached, for the distribution of the banner. -/
def FixRow.Fixes (row : FixRow) (port : Port) : Prop :=
  ∃ fields, row.EncodedAs fields ∧ fields.fix.distro = (parseDistroTag port.distro).distro ∧
    fields.fix.Reached port.installed

/-- The distribution of a banner is in lower case and has no bar. -/
theorem toLower_parseDistroTag (tag : Bytes) :
    toLower (parseDistroTag tag).distro = (parseDistroTag tag).distro ∧
      (124 : Byte) ∉ (parseDistroTag tag).distro := by
  unfold parseDistroTag
  dsimp only
  split_ifs <;> dsimp only <;> decide

/-- Whatever runs of the sync came before, with whatever documents: when a scan with the table of a run marks a
CVE as not vulnerable, the run was asked for that CVE and has made a row, with a fixed version that the installed
one has reached, of a document that a tracker sent for the CVE, to the run itself or no longer ago than its TTL. -/
theorem not_vulnerable_traceable {trackers : Trackers} {trace : List SyncEvent} {st st' : SyncState}
    (history : SyncHistory trackers trace st) {opts : SyncOptions} {gmtime : ℕ → GmTime} {cves : List Text}
    (hcves : ∀ cve ∈ cves, PlainId cve) {content : Bytes} (hmain : opts.main trackers gmtime cves st = .ok content st')
    {database : List CveEntry} {now : ℕ → ℤ} {port : Port} {found : List Finding}
    (hcheck : checkPort database (loadDistroFixes content) now port = some found) {f : Finding} (hf : f ∈ found)
    (hverdict : f.verification = str "NOT_VULNERABLE") :
    ∃ cve ∈ cves, utf8 cve = some f.cveId ∧
      ∃ row : FixRow, row.Fixes port ∧ opts.Sourced trackers st.clock st'.replies cve row := by
  -- the table was written by the run
  obtain ⟨made, t, hall, hmain⟩ := Effect.exists_of_bind_run_ok hmain
  rw [Effect.gets_bind_run] at hmain
  obtain ⟨rows, t', hformatted, hmain⟩ := Effect.exists_of_bind_run_ok hmain
  obtain ⟨hwritten, rfl⟩ := orRaise_eq_ok hmain
  obtain ⟨hrows, rfl⟩ := orRaise_eq_ok hformatted
  have hsourced : ∀ row ∈ rows, ∃ cve ∈ cves, opts.Sourced trackers st.clock t.replies cve row := by
    intro row hrow
    obtain ⟨o, ho, rfl⟩ := exists_of_mem_mapM hrows hrow
    exact allRows_sourced history.sound hcves hall row ho
  have hnamed : ∀ row ∈ rows, row.Named := by
    intro row hrow
    obtain ⟨cve, hcve, r, -, -, given, -, hmade⟩ := hsourced row hrow
    exact hmade.madeFor.named (hcves cve hcve)
  -- the verdict rests on a row
  obtain ⟨entry, -, -, hfor⟩ := (checkPort_spec hcheck).1 f hf
  obtain ⟨outcome, time, houtcome, heq⟩ := id hfor
  have hpatched : outcome.patched = true := by
    by_contra hnot
    rw [heq, if_neg hnot] at hverdict
    exact absurd hverdict (by show str "VERSION_MATCH" ≠ str "NOT_VULNERABLE"; decide)
  obtain ⟨fix, hfix, hkey, hreached⟩ := exists_reached_of_checkBackport houtcome hpatched
  obtain ⟨row, hrow, fields, hfields, rfl⟩ := exists_row_of_loaded hnamed hwritten hfix
  obtain ⟨cve, hcve, hsource⟩ := hsourced row hrow
  obtain ⟨r, -, -, given, -, hmade⟩ := id hsource
  obtain ⟨hlower, hbar⟩ := toLower_parseDistroTag port.distro
  obtain ⟨hsame, hdistro⟩ := hmade.madeFor.cve_eq (hcves cve hcve) hfields (hlower.symm ▸ hbar) hkey
  exact ⟨cve, hcve, hfor.fields.1.symm ▸ hsame, row, ⟨fields, hfields, hdistro.trans hlower, hreached⟩, hsource⟩

/-- Ubuntu answers the first request only. -/
def firstAnswer : Trackers where
  answer := fun n _ => if n = 0 then .document jammyRecord else .failed
  delay := fun _ => 1000000
  pause := fun _ => 150000000

/-- The entry of the database for that CVE. -/
def jammyEntry : CveEntry where
  cveId := str "CVE-2024-6387"
  product := str "openssh"
  versionMin := str "8.5p1"
  versionMax := str "9.7p1"

/-- A patched server. -/
def jammyServer : Port := { opensshPort (str "3ubuntu0.13") with product := str "openssh" }

/-- The second sync, an hour later, takes the record from the cache. -/
theorem not_vulnerable_traceable_sample : ∃ st st' content, ∃ f : Finding,
    SyncHistory firstAnswer [.run jammySync [text "CVE-2024-6387"], .wait 3600000000000] st ∧
      jammySync.main firstAnswer (fun _ => ⟨2024, 7, 2, 12, 0, 0⟩) [text "CVE-2024-6387"] st = .ok content st' ∧
      (∃ found, checkPort [jammyEntry] (loadDistroFixes content) (fun _ => 0) jammyServer = some found ∧ f ∈ found) ∧
      ∃ row : FixRow, row.Fixes jammyServer ∧
        jammySync.Sourced firstAnswer st.clock st'.replies (text "CVE-2024-6387") row := by
  have hplain : ∀ cve ∈ [text "CVE-2024-6387"], PlainId cve := by decide
  have hruns : (([.run jammySync [text "CVE-2024-6387"], .wait 3600000000000] : List SyncEvent).foldlM
      (SyncState.step firstAnswer) ({} : SyncState)).any (fun st =>
        match jammySync.main firstAnswer (fun _ => ⟨2024, 7, 2, 12, 0, 0⟩) [text "CVE-2024-6387"] st with
        | .ok content _ => (checkPort [jammyEntry] (loadDistroFixes content) (fun _ => 0) jammyServer).any
          fun found => found.any fun f => f.verification == str "NOT_VULNERABLE"
        | _ => false) = true := by
    decide +kernel
  obtain ⟨st, hst, hruns⟩ := (Option.any_eq_true _ _).mp hruns
  have history : SyncHistory firstAnswer [.run jammySync [text "CVE-2024-6387"], .wait 3600000000000] st :=
    ⟨Run.iff_foldlM.mpr hst, List.forall_mem_cons.mpr ⟨hplain, List.forall_mem_singleton.mpr trivial⟩⟩
  split at hruns
  · next content st' hmain =>
    obtain ⟨found, hcheck, hruns⟩ := (Option.any_eq_true _ _).mp hruns
    obtain ⟨f, hf, hverdict⟩ := List.any_eq_true.mp hruns
    obtain ⟨cve, hcve, -, row, hfixes, hsourced⟩ :=
      not_vulnerable_traceable history hplain hmain hcheck hf (beq_iff_eq.mp hverdict)
    obtain rfl := List.mem_singleton.mp hcve
    exact ⟨st, st', content, f, history, hmain, ⟨found, hcheck, hf⟩, row, hfixes, hsourced⟩
  · cases hruns

end ZeroTrust
