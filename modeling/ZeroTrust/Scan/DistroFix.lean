import ZeroTrust.Core.Finding
import ZeroTrust.Scan.DpkgOrder

/-!
# Distribution fixes

`load_distro_fixes` keeps the rows of the fix table and, for every CVE and distribution, the
positions of their rows. That the positions select exactly those rows is a field of the table.
`check_backport` scans the selected rows; read as a question about the table it asks for one
row of the right kind, so it depends neither on the order of the rows nor on anything but the
policy order of the revisions.
-/

namespace ZeroTrust

/-- A row of the fix table. -/
structure DistroFix where
  cve : Bytes
  distro : Bytes
  release : Bytes
  package : Bytes
  fixedVersion : Bytes
  status : Bytes
deriving DecidableEq, Repr

/-- `distro_fix_key`. -/
def distroFixKey (cve distro : Bytes) : Bytes := cve ++ 124 :: toLower distro

/-- The key under which a row is stored. -/
def DistroFix.key (fix : DistroFix) : Bytes := distroFixKey fix.cve fix.distro

/-- The fix table with its index; keys without rows have the empty list. -/
structure DistroTable where
  rows : List DistroFix
  index : Bytes → List ℕ
  index_rows : ∀ key, (index key).map (rows[·]?) = (rows.filter (·.key = key)).map some

namespace DistroTable

/-- The table without rows. -/
def empty : DistroTable where
  rows := []
  index := fun _ => []
  index_rows := fun _ => rfl

/-- The index points into the table. -/
theorem index_lt (table : DistroTable) {key : Bytes} {i : ℕ} (h : i ∈ table.index key) :
    i < table.rows.length := by
  have hmem : table.rows[i]? ∈ (table.index key).map (table.rows[·]?) := List.mem_map_of_mem h
  rw [table.index_rows key, List.mem_map] at hmem
  obtain ⟨fix, -, hfix⟩ := hmem
  exact (List.getElem?_eq_some_iff.mp hfix.symm).1

/-- Store a row and record its position. -/
def push (table : DistroTable) (fix : DistroFix) : DistroTable where
  rows := table.rows ++ [fix]
  index := Function.update table.index fix.key (table.index fix.key ++ [table.rows.length])
  index_rows key := by
    have hold : (table.index key).map ((table.rows ++ [fix])[·]?) =
        (table.rows.filter (·.key = key)).map some := by
      rw [← table.index_rows key]
      exact List.map_congr_left fun i hi => List.getElem?_append_left (table.index_lt hi)
    by_cases h : key = fix.key
    · subst h
      rw [Function.update_self, List.map_append, hold, List.filter_append, List.map_append]
      simp
    · rw [Function.update_of_ne h, hold, List.filter_append, List.map_append]
      simp [Ne.symm h]

/-- The rows that the index lists for a key. -/
def select (table : DistroTable) (key : Bytes) : List DistroFix :=
  (table.index key).filterMap (table.rows[·]?)

/-- What is selected are the rows with the key. -/
theorem select_eq_filter (table : DistroTable) (key : Bytes) :
    table.select key = table.rows.filter (·.key = key) := by
  have h := congrArg (List.filterMap id) (table.index_rows key)
  rw [List.filterMap_map, List.filterMap_map] at h
  exact h.trans List.filterMap_some

/-- A pushed row is the last one. -/
@[simp] theorem rows_push (table : DistroTable) (fix : DistroFix) :
    (table.push fix).rows = table.rows ++ [fix] := rfl

end DistroTable

/-- `split_by_tab`. -/
def splitByTab (line : Bytes) : List Bytes := getlines 9 line

/-- The row on a line of the file, unless the line is skipped. -/
def parseDistroFix (line : Bytes) : Option DistroFix :=
  if line = [] ∨ line.head? = some 35 then none
  else match splitByTab line with
    | cve :: distro :: release :: package :: fixedVersion :: status :: _ =>
      some { cve := cve, distro := toLower distro, release := release, package := package,
             fixedVersion := fixedVersion, status := toLower status }
    | _ => none

/-- `load_distro_fixes` on the content of a readable file; the old table is discarded. -/
def loadDistroFixes (content : Bytes) : DistroTable :=
  (getlines 10 content).foldl (fun table line =>
    match parseDistroFix line with
    | some fix => table.push fix
    | none => table) .empty

/-- `DistroTag`. -/
structure DistroTag where
  distro : Bytes := []
  revision : Bytes := []
deriving DecidableEq, Repr

/-- The lambda `strip` of `parse_distro_tag`. -/
def stripPrefix (s marker : Bytes) : Bytes := if marker.isPrefixOf s then s.drop marker.length else s

/-- The text between the last parentheses, without a leading distribution marker. -/
def distroRevision (tag : Bytes) : Bytes :=
  match rfindByte 40 tag, rfindByte 41 tag with
  | some openAt, some closeAt =>
    if closeAt ≤ openAt + 1 then []
    else
      let inside := (tag.drop (openAt + 1)).take (closeAt - openAt - 1)
      stripPrefix (stripPrefix inside (str "Ubuntu-")) (str "Debian-")
  | _, _ => []

/-- `parse_distro_tag`. -/
def parseDistroTag (tag : Bytes) : DistroTag :=
  let lower := toLower tag
  if contains lower (str "ubuntu") then { distro := str "ubuntu", revision := distroRevision tag }
  else if contains lower (str "debian") then { distro := str "debian", revision := distroRevision tag }
  else {}

/-- `BackportOutcome`. -/
structure BackportOutcome where
  patched : Bool := false
  releaseNotAffected : Bool := false
  via : Bytes := []
deriving DecidableEq, Repr

/-- Whether a row names a fixed version. -/
def DistroFix.hasFix (fix : DistroFix) : Bool :=
  fix.status == str "released" || fix.status == str "resolved" || fix.status == str "fixed"

/-- The evidence text for a row. -/
def DistroFix.via (fix : DistroFix) (distro : Bytes) : Bytes :=
  distro ++ str " " ++ fix.release ++ str ": " ++ fix.package ++ str " " ++ fix.fixedVersion

/-- The scan of `check_backport` over the rows of a key; `none` is a comparison that hangs. -/
def backportScan (distro installedFull : Bytes) :
    List DistroFix → BackportOutcome → Option BackportOutcome
  | [], result => some result
  | fix :: rows, result => do
    if fix.status = str "not-affected" then
      backportScan distro installedFull rows { result with releaseNotAffected := true }
    else if !fix.hasFix || fix.fixedVersion.isEmpty then backportScan distro installedFull rows result
    else
      let fv := parseDpkgVersion fix.fixedVersion
      let iv := parseDpkgVersion installedFull
      if (← dpkgCompareStr fv.upstream iv.upstream) ≠ 0 then backportScan distro installedFull rows result
      else if (← dpkgCompareStr iv.revision fv.revision) < 0 then
        backportScan distro installedFull rows result
      else return { result with patched := true, via := fix.via distro }

/-- `check_backport`. -/
def checkBackport (table : DistroTable) (cveId : Bytes) (port : Port) : Option BackportOutcome :=
  if port.version = [] ∨ port.distro = [] then some {}
  else
    let tag := parseDistroTag port.distro
    if tag.distro = [] ∨ tag.revision = [] then some {}
    else
      let installedFull := port.version ++ str "-" ++ tag.revision
      backportScan tag.distro installedFull (table.select (distroFixKey cveId tag.distro)) {}

/-- The rows of a loaded table are the parsed lines, in order. -/
theorem rows_loadDistroFixes (content : Bytes) :
    (loadDistroFixes content).rows = (getlines 10 content).filterMap parseDistroFix := by
  have hfold : ∀ (lines : List Bytes) (table : DistroTable),
      (lines.foldl (fun table line => match parseDistroFix line with
        | some fix => table.push fix
        | none => table) table).rows = table.rows ++ lines.filterMap parseDistroFix := by
    intro lines
    induction lines with
    | nil => intro table; simp
    | cons line lines ih =>
      intro table
      rw [List.foldl_cons, ih]
      cases h : parseDistroFix line <;> simp [h]
  exact hfold _ _

/-- Lower-case text stays as it is. -/
@[simp] theorem toLower_toLower (s : Bytes) : toLower (toLower s) = toLower s := by
  have hbyte : ∀ c, toLowerByte (toLowerByte c) = toLowerByte c := by
    intro c
    unfold toLowerByte
    split
    · next h =>
      simp only [Bool.and_eq_true, decide_eq_true_eq, UInt8.le_iff_toNat_le, UInt8.reduceToNat] at h
      have hadd : (c + 32).toNat = c.toNat + 32 := by
        rw [UInt8.toNat_add]
        simp only [UInt8.reduceToNat]
        omega
      rw [if_neg]
      simp only [Bool.and_eq_true, decide_eq_true_eq, UInt8.le_iff_toNat_le, UInt8.reduceToNat, hadd]
      omega
    · rfl
  simp [toLower, hbyte]

/-- Stored distributions are in lower case and fixed versions are parts of the file. -/
theorem parseDistroFix_spec {line : Bytes} {fix : DistroFix} (h : parseDistroFix line = some fix) :
    toLower fix.distro = fix.distro ∧ fix.fixedVersion.Sublist line := by
  unfold parseDistroFix at h
  split at h
  · cases h
  · split at h
    · next cve distro release package fixedVersion status rest hfields =>
      cases h
      have hmem : fixedVersion ∈ splitByTab line := by simp [hfields]
      exact ⟨toLower_toLower distro, sublist_of_mem_getlines hmem⟩
    · cases h

/-- A loaded row has a lower-case distribution, and its version was in the file. -/
theorem mem_rows_loadDistroFixes {content : Bytes} {fix : DistroFix}
    (h : fix ∈ (loadDistroFixes content).rows) :
    toLower fix.distro = fix.distro ∧ fix.fixedVersion.Sublist content := by
  rw [rows_loadDistroFixes, List.mem_filterMap] at h
  obtain ⟨line, hline, hfix⟩ := h
  obtain ⟨hdistro, hversion⟩ := parseDistroFix_spec hfix
  exact ⟨hdistro, hversion.trans (sublist_of_mem_getlines hline)⟩

/-- A known distribution of a tag is one of two. -/
theorem parseDistroTag_distro {tag : Bytes} (h : (parseDistroTag tag).revision ≠ []) :
    (parseDistroTag tag).distro = str "ubuntu" ∨ (parseDistroTag tag).distro = str "debian" := by
  unfold parseDistroTag at h ⊢
  dsimp only at h ⊢
  split_ifs at h ⊢
  · exact Or.inl rfl
  · exact Or.inr rfl
  · exact absurd rfl h

/-- What a row must offer for revision `R` of upstream version `V`. -/
def DistroFix.Covers (fix : DistroFix) (version revision : Bytes) : Prop :=
  (fix.status = str "released" ∨ fix.status = str "resolved" ∨ fix.status = str "fixed") ∧
    fix.fixedVersion ≠ [] ∧
    dpkgCompareStr (parseDpkgVersion fix.fixedVersion).upstream version = some 0 ∧
    ∃ c, dpkgCompareStr (parseDpkgVersion fix.fixedVersion).revision revision = some c ∧ c ≤ 0

/-- The statuses of a fix. -/
theorem DistroFix.hasFix_iff (fix : DistroFix) :
    fix.hasFix = true ↔
      fix.status = str "released" ∨ fix.status = str "resolved" ∨ fix.status = str "fixed" := by
  simp [hasFix, or_assoc]

/-- The scan ends, and it reports a patch exactly when some row covers the installed version. -/
theorem backportScan_eq {distro installed version revision epoch : Bytes}
    (hinstalled : parseDpkgVersion installed = ⟨epoch, version, revision⟩)
    (hversion : NulFree version) (hrevision : NulFree revision) {rows : List DistroFix}
    (hrows : ∀ fix ∈ rows, NulFree fix.fixedVersion) (result : BackportOutcome)
    (hresult : result.patched = false) :
    ∃ outcome, backportScan distro installed rows result = some outcome ∧
      (outcome.patched = true ↔ ∃ fix ∈ rows, fix.Covers version revision) := by
  induction rows generalizing result with
  | nil => exact ⟨result, rfl, by simp [hresult]⟩
  | cons fix rows ih =>
    have hrest : ∀ fix ∈ rows, NulFree fix.fixedVersion := fun fix h => hrows fix (List.mem_cons_of_mem _ h)
    obtain ⟨-, hupstream, hfixrevision⟩ := (hrows fix List.mem_cons_self).parseDpkgVersion
    -- a row that does not cover the version leaves the question to the remaining rows
    have hskip : ¬fix.Covers version revision → ∀ result : BackportOutcome, result.patched = false →
        ∃ outcome, backportScan distro installed rows result = some outcome ∧
          (outcome.patched = true ↔ ∃ f ∈ fix :: rows, f.Covers version revision) := by
      intro hfix result hresult
      obtain ⟨outcome, hscan, hiff⟩ := ih hrest result hresult
      exact ⟨outcome, hscan, by simp [hiff, hfix]⟩
    have hcompare := dpkgCompareStr_eq hupstream hversion
    have hcompare' := dpkgCompareStr_eq hrevision hfixrevision
    rw [backportScan]
    split
    · next hstatus =>
      refine hskip (fun hcovers => ?_) _ hresult
      rw [DistroFix.Covers, hstatus] at hcovers
      exact absurd hcovers.1 (by decide)
    · split
      · next hno =>
        refine hskip (fun hcovers => ?_) _ hresult
        rw [DistroFix.Covers, ← DistroFix.hasFix_iff] at hcovers
        simp [hcovers.1, hcovers.2.1] at hno
      · next hyes =>
        simp only [Bool.or_eq_true, Bool.not_eq_true', not_or, Bool.not_eq_false, List.isEmpty_iff] at hyes
        simp only [hinstalled, hcompare, hcompare', Option.bind_eq_bind, Option.bind_some, ne_eq,
          orderingSign_eq_zero]
        split
        · next hne =>
          refine hskip (fun hcovers => hne ?_) _ hresult
          have := hcovers.2.2.1
          rwa [hcompare, Option.some_inj, orderingSign_eq_zero] at this
        · next heq =>
          rw [Decidable.not_not] at heq
          split
          · next hlt =>
            refine hskip (fun hcovers => ?_) _ hresult
            obtain ⟨c, hc, hle⟩ := hcovers.2.2.2
            rw [dpkgCompareStr_eq hfixrevision hrevision, Option.some_inj,
              @Std.OrientedCmp.eq_swap _ policyCompare _, orderingSign_swap] at hc
            omega
          · next hge =>
            refine ⟨_, rfl, iff_of_true rfl ⟨fix, List.mem_cons_self, ?_⟩⟩
            refine ⟨(DistroFix.hasFix_iff fix).mp hyes.1, hyes.2, ?_, ?_⟩
            · rw [hcompare, heq]; rfl
            · refine ⟨_, dpkgCompareStr_eq hfixrevision hrevision, ?_⟩
              rw [@Std.OrientedCmp.eq_swap _ policyCompare _, orderingSign_swap]
              omega

/-- A text with a leading epoch. -/
def HasEpoch (v : Bytes) : Prop := ∃ d rest, v = d ++ 58 :: rest ∧ d ≠ [] ∧ d.all isDigit

/-- A version without a colon has no epoch. -/
theorem not_hasEpoch_of_not_mem {v : Bytes} (h : (58 : Byte) ∉ v) : ¬HasEpoch v := by
  rintro ⟨d, rest, rfl, -⟩
  exact h (by simp)

/-- A query that installs upstream version `port.version` in a revision of a known distribution. -/
structure BackportQuery (cve : Bytes) (port : Port) (distro revision : Bytes) : Prop where
  cve_bar : (124 : Byte) ∉ cve
  tag : parseDistroTag port.distro = { distro := distro, revision := revision }
  revision_ne_nil : revision ≠ []
  revision_dash : (45 : Byte) ∉ revision
  revision_nulFree : NulFree revision
  version_ne_nil : port.version ≠ []
  version_epoch : ¬HasEpoch port.version
  version_nulFree : NulFree port.version

namespace BackportQuery

variable {cve : Bytes} {port : Port} {distro revision : Bytes}

/-- A query is about one of two distributions. -/
theorem distro_cases (h : BackportQuery cve port distro revision) :
    distro = str "ubuntu" ∨ distro = str "debian" := by
  have htag := @parseDistroTag_distro port.distro (by rw [h.tag]; exact h.revision_ne_nil)
  rwa [h.tag] at htag

/-- The installed version decomposes into what it was put together from. -/
theorem parse_installed (h : BackportQuery cve port distro revision) :
    parseDpkgVersion (port.version ++ str "-" ++ revision) = ⟨[], port.version, revision⟩ := by
  have hsplit : splitEpoch port.version = ([], port.version) := by
    by_cases hcolon : (58 : Byte) ∈ port.version
    · obtain ⟨d, rest, hv, hd⟩ := exists_of_mem_first hcolon
      rw [hv, splitEpoch_of_colon hd, if_neg fun hdigits => h.version_epoch ⟨d, rest, hv, hdigits⟩]
    · rw [splitEpoch, findByte_eq_none.mpr hcolon]
  have hdash : port.version ++ str "-" ++ revision = port.version ++ 45 :: revision := List.append_assoc ..
  rw [hdash, parseDpkgVersion_append_dash h.revision_dash, hsplit]

/-- Only rows for the CVE and the distribution are stored under its key. -/
theorem key_eq_iff (h : BackportQuery cve port distro revision) {fix : DistroFix}
    (hlower : toLower fix.distro = fix.distro) :
    fix.key = distroFixKey cve distro ↔ fix.cve = cve ∧ fix.distro = distro := by
  have hdistro : toLower distro = distro ∧ (124 : Byte) ∉ distro := by
    rcases h.distro_cases with rfl | rfl <;> decide
  rw [DistroFix.key, distroFixKey, distroFixKey, hlower, hdistro.1]
  refine ⟨fun hkey => ?_, fun ⟨hcve, hfix⟩ => by rw [hcve, hfix]⟩
  -- neither the CVE nor the distribution contains the separator
  obtain ⟨hcve, -, hfix⟩ := (List.append_cons_inj_of_notMem h.cve_bar hdistro.2).mp hkey.symm
  exact ⟨hcve.symm, hfix.symm⟩

/-- The table has a row that covers the installed revision. -/
def HasFix (cve distro version revision : Bytes) (rows : List DistroFix) : Prop :=
  ∃ fix ∈ rows, fix.cve = cve ∧ fix.distro = distro ∧ fix.Covers version revision

/-- The check ends, and it reports a patch exactly when the table has a covering row. -/
theorem checkBackport_eq (h : BackportQuery cve port distro revision) {content : Bytes}
    (hcontent : NulFree content) :
    ∃ outcome, checkBackport (loadDistroFixes content) cve port = some outcome ∧
      (outcome.patched = true ↔
        HasFix cve distro port.version revision (loadDistroFixes content).rows) := by
  have hdistro : port.distro ≠ [] := by
    intro hempty
    have htag := h.tag
    rw [hempty, show parseDistroTag [] = {} by decide, DistroTag.mk.injEq] at htag
    exact h.revision_ne_nil htag.2.symm
  have hname : distro ≠ [] := by rcases h.distro_cases with rfl | rfl <;> decide
  have hrows : ∀ fix ∈ (loadDistroFixes content).select (distroFixKey cve distro),
      NulFree fix.fixedVersion := by
    intro fix hfix
    rw [DistroTable.select_eq_filter] at hfix
    exact hcontent.of_sublist (mem_rows_loadDistroFixes (List.mem_filter.mp hfix).1).2
  obtain ⟨outcome, hscan, hiff⟩ := @backportScan_eq distro _ _ _ _ h.parse_installed
    h.version_nulFree h.revision_nulFree _ hrows {} rfl
  refine ⟨outcome, ?_, hiff.trans ?_⟩
  · rw [checkBackport, if_neg (by simp [h.version_ne_nil, hdistro]), h.tag]
    dsimp only
    rw [if_neg (by simp [hname, h.revision_ne_nil])]
    exact hscan
  · rw [DistroTable.select_eq_filter]
    constructor
    · rintro ⟨fix, hfix, hcovers⟩
      obtain ⟨hmem, hkey⟩ := List.mem_filter.mp hfix
      have hboth := (h.key_eq_iff (mem_rows_loadDistroFixes hmem).1).mp (of_decide_eq_true hkey)
      exact ⟨fix, hmem, hboth.1, hboth.2, hcovers⟩
    · rintro ⟨fix, hmem, hcve, hfix, hcovers⟩
      have hkey := (h.key_eq_iff (mem_rows_loadDistroFixes hmem).1).mpr ⟨hcve, hfix⟩
      exact ⟨fix, List.mem_filter.mpr ⟨hmem, decide_eq_true hkey⟩, hcovers⟩

end BackportQuery

/-- A row that covers a revision covers every later one. -/
theorem DistroFix.Covers.mono {fix : DistroFix} {version revision revision' : Bytes} {c : ℤ}
    (h : fix.Covers version revision) (hfix : NulFree fix.fixedVersion) (hr : NulFree revision)
    (hr' : NulFree revision') (hle : dpkgCompareStr revision revision' = some c) (hc : c ≤ 0) :
    fix.Covers version revision' := by
  obtain ⟨hstatus, hne, hupstream, c', hrevision, hc'⟩ := h
  have hfr := hfix.parseDpkgVersion.2.2
  refine ⟨hstatus, hne, hupstream, _, dpkgCompareStr_eq hfr hr', ?_⟩
  rw [dpkgCompareStr_eq hfr hr, Option.some_inj] at hrevision
  rw [dpkgCompareStr_eq hr hr', Option.some_inj] at hle
  subst hrevision hle
  rw [orderingSign_le_zero] at hc hc' ⊢
  exact Std.TransCmp.isLE_trans hc' hc

/-- `checkBackport` is exact; hence it does not depend on the order of the rows and is monotone in
the installed revision. -/
theorem checkBackport_exact {content cve distro revision : Bytes} {port : Port}
    (hcontent : NulFree content) (h : BackportQuery cve port distro revision) :
    (∃ outcome, checkBackport (loadDistroFixes content) cve port = some outcome ∧
      (outcome.patched = true ↔
        BackportQuery.HasFix cve distro port.version revision (loadDistroFixes content).rows)) ∧
    (∀ content', NulFree content' →
      (loadDistroFixes content').rows.Perm (loadDistroFixes content).rows →
        (checkBackport (loadDistroFixes content') cve port).map BackportOutcome.patched =
          (checkBackport (loadDistroFixes content) cve port).map BackportOutcome.patched) ∧
    ∀ port' revision' c, BackportQuery cve port' distro revision' → port'.version = port.version →
      dpkgCompareStr revision revision' = some c → c ≤ 0 →
        (checkBackport (loadDistroFixes content) cve port).map BackportOutcome.patched = some true →
          (checkBackport (loadDistroFixes content) cve port').map BackportOutcome.patched = some true := by
  obtain ⟨outcome, hrun, hiff⟩ := h.checkBackport_eq hcontent
  refine ⟨⟨outcome, hrun, hiff⟩, ?_, ?_⟩
  · intro content' hcontent' hperm
    obtain ⟨outcome', hrun', hiff'⟩ := h.checkBackport_eq hcontent'
    have hsame : outcome'.patched = true ↔ outcome.patched = true := by
      rw [hiff, hiff']
      exact exists_congr fun fix => and_congr_left' hperm.mem_iff
    rw [hrun, hrun', Option.map_some, Option.map_some, Bool.eq_iff_iff.mpr hsame]
  · intro port' revision' c h' hversion hle hc hpatched
    obtain ⟨outcome', hrun', hiff'⟩ := h'.checkBackport_eq hcontent
    rw [hrun, Option.map_some, Option.some_inj, hiff] at hpatched
    rw [hrun', Option.map_some, Option.some_inj, hiff', hversion]
    obtain ⟨fix, hmem, hcve, hdistro, hcovers⟩ := hpatched
    have hfix : NulFree fix.fixedVersion :=
      hcontent.of_sublist (mem_rows_loadDistroFixes hmem).2
    exact ⟨fix, hmem, hcve, hdistro,
      hcovers.mono hfix h.revision_nulFree h'.revision_nulFree hle hc⟩

/-- A fix table with one row. -/
def opensshFixes : Bytes :=
  str "CVE-2023-38408\tUbuntu\t22.04\topenssh\t1:8.9p1-3ubuntu0.3\treleased\n"

/-- A server whose package revision is `revision`. -/
def opensshPort (revision : Bytes) : Port where
  number := 22
  version := str "8.9p1"
  distro := str "Ubuntu (Ubuntu-" ++ revision ++ str ")"

/-- The banner of an Ubuntu server makes a query. -/
theorem opensshQuery : BackportQuery (str "CVE-2023-38408") (opensshPort (str "3ubuntu0.17"))
    (str "ubuntu") (str "3ubuntu0.17") where
  cve_bar := by decide
  tag := by decide
  revision_ne_nil := by decide
  revision_dash := by decide
  revision_nulFree := by decide
  version_ne_nil := by decide
  version_epoch := not_hasEpoch_of_not_mem (by decide)
  version_nulFree := by decide

/-- The shipped fix of an OpenSSH on Ubuntu. -/
theorem checkBackport_exact_openssh :
    (checkBackport (loadDistroFixes opensshFixes) (str "CVE-2023-38408")
        (opensshPort (str "3ubuntu0.17"))).map BackportOutcome.patched = some true ∧
      BackportQuery.HasFix (str "CVE-2023-38408") (str "ubuntu") (str "8.9p1") (str "3ubuntu0.17")
        (loadDistroFixes opensshFixes).rows := by
  have hpatched : (checkBackport (loadDistroFixes opensshFixes) (str "CVE-2023-38408")
      (opensshPort (str "3ubuntu0.17"))).map BackportOutcome.patched = some true := by decide
  obtain ⟨outcome, hrun, hiff⟩ :=
    (@checkBackport_exact opensshFixes _ _ _ _ (by decide) opensshQuery).1
  refine ⟨hpatched, hiff.mp ?_⟩
  rwa [hrun, Option.map_some, Option.some_inj] at hpatched

end ZeroTrust
