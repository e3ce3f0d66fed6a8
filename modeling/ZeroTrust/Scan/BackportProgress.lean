import ZeroTrust.Scan.DistroFix
import ZeroTrust.Scan.DpkgProgress

/-!
# When a backport is decided

`check_backport` goes through the rows of a CVE and a distribution until one covers the installed version.
For every row in front of it the comparisons must come to an end, which depends on the zero bytes in the
compared texts and on the policy order of what stands before them.
-/

namespace ZeroTrust

/-- The comparison of two texts comes to an end: no zero byte is in them, or they differ before it. -/
def DpkgDecided (a b : Bytes) : Prop := (NulFree a ∧ NulFree b) ∨ policyCompare (beforeNul a) (beforeNul b) ≠ .eq

instance (a b : Bytes) : Decidable (DpkgDecided a b) := inferInstanceAs (Decidable (_ ∨ _))

/-- Texts without zero bytes are decided. -/
theorem NulFree.dpkgDecided {a b : Bytes} (ha : NulFree a) (hb : NulFree b) : DpkgDecided a b := .inl ⟨ha, hb⟩

/-- A decided comparison has the sign of the policy order. -/
theorem DpkgDecided.compare_eq {a b : Bytes} (h : DpkgDecided a b) :
    dpkgCompareStr a b = some (orderingSign (policyCompare (beforeNul a) (beforeNul b))) :=
  (dpkgCompareStr_cases a b).1 h

/-- One that is not decided hangs. -/
theorem dpkgCompareStr_of_not_decided {a b : Bytes} (h : ¬DpkgDecided a b) : dpkgCompareStr a b = none :=
  (dpkgCompareStr_cases a b).2 h

/-- Only the order before the zero bytes makes a sign negative. -/
theorem orderingSign_neg_iff {o : Ordering} : orderingSign o < 0 ↔ o = .lt := by cases o <;> decide

/-- A row whose fixed version is compared with the installed one. -/
def DistroFix.Compared (fix : DistroFix) : Prop := fix.hasFix = true ∧ fix.fixedVersion ≠ []

instance : DecidablePred DistroFix.Compared := fun _ => inferInstanceAs (Decidable (_ ∧ _))

/-- The comparisons of a row with an installed version come to an end: that of the upstream versions, and
that of the revisions where the upstream versions are the same. -/
def DistroFix.Decided (fix : DistroFix) (installed : DpkgVersion) : Prop :=
  DpkgDecided (parseDpkgVersion fix.fixedVersion).upstream installed.upstream ∧
    (policyCompare (beforeNul (parseDpkgVersion fix.fixedVersion).upstream) (beforeNul installed.upstream) = .eq →
      DpkgDecided installed.revision (parseDpkgVersion fix.fixedVersion).revision)

instance (fix : DistroFix) (installed : DpkgVersion) : Decidable (fix.Decided installed) :=
  inferInstanceAs (Decidable (_ ∧ _))

/-- The row covers the installed version, so the scan ends with it. -/
def DistroFix.Stops (fix : DistroFix) (installed : DpkgVersion) : Prop :=
  fix.Compared ∧
    policyCompare (beforeNul (parseDpkgVersion fix.fixedVersion).upstream) (beforeNul installed.upstream) = .eq ∧
    policyCompare (beforeNul installed.revision) (beforeNul (parseDpkgVersion fix.fixedVersion).revision) ≠ .lt

instance (fix : DistroFix) (installed : DpkgVersion) : Decidable (fix.Stops installed) :=
  inferInstanceAs (Decidable (_ ∧ _ ∧ _))

/-- Every row that is compared before some row covers the installed version is decided. -/
def RowsDecided (installed : DpkgVersion) (rows : List DistroFix) : Prop :=
  ∀ before fix after, rows = before ++ fix :: after → (∀ f ∈ before, ¬f.Stops installed) → fix.Compared →
    fix.Decided installed

/-- The rows for a CVE on the distribution of a port are decided. -/
def BackportDecided (table : DistroTable) (cveId : Bytes) (port : Port) : Prop :=
  port.version ≠ [] → (parseDistroTag port.distro).distro ≠ [] → (parseDistroTag port.distro).revision ≠ [] →
    RowsDecided (parseDpkgVersion (port.version ++ str "-" ++ (parseDistroTag port.distro).revision))
      (table.rows.filter (·.key = distroFixKey cveId (parseDistroTag port.distro).distro))

variable {installed : DpkgVersion} {fix : DistroFix} {rows : List DistroFix}

/-- The first row is decided, and the others are unless it ends the scan. -/
theorem rowsDecided_cons :
    RowsDecided installed (fix :: rows) ↔
      (fix.Compared → fix.Decided installed) ∧ (¬fix.Stops installed → RowsDecided installed rows) := by
  constructor
  · intro h
    refine ⟨h [] fix rows rfl nofun, fun hgoes before f after hsplit hbefore => ?_⟩
    refine h (fix :: before) f after (by rw [hsplit]; rfl) fun g hg => ?_
    rcases List.mem_cons.mp hg with rfl | hg
    · exact hgoes
    · exact hbefore g hg
  · rintro ⟨hfirst, hrest⟩ before f after hsplit hbefore
    cases before with
    | nil =>
      obtain ⟨rfl, rfl⟩ := List.cons.inj hsplit
      exact hfirst
    | cons g before =>
      obtain ⟨rfl, rfl⟩ := List.cons.inj hsplit
      exact hrest (hbefore _ List.mem_cons_self) before f after rfl fun g hg =>
        hbefore g (List.mem_cons_of_mem _ hg)

/-- A row that is not compared neither hangs nor ends the scan. -/
theorem rowsDecided_cons_of_not_compared (h : ¬fix.Compared) :
    RowsDecided installed (fix :: rows) ↔ RowsDecided installed rows := by
  rw [rowsDecided_cons]
  exact ⟨fun hrows => hrows.2 fun hstops => h hstops.1,
    fun hrows => ⟨fun hcompared => absurd hcompared h, fun _ => hrows⟩⟩

/-- The scan over the rows comes to an end exactly when they are decided. -/
theorem backportScan_isSome_iff (distro installedFull : Bytes) (rows : List DistroFix) (result : BackportOutcome) :
    (backportScan distro installedFull rows result).isSome ↔ RowsDecided (parseDpkgVersion installedFull) rows := by
  induction rows generalizing result with
  | nil =>
    refine iff_of_true rfl fun before fix after hsplit => ?_
    exact absurd hsplit (List.append_ne_nil_of_right_ne_nil _ (List.cons_ne_nil _ _)).symm
  | cons fix rows ih =>
    rw [backportScan]
    split
    · next hstatus =>
      rw [rowsDecided_cons_of_not_compared fun h => absurd h.1 (by rw [DistroFix.hasFix, hstatus]; decide), ih]
    · split
      · next hno =>
        rw [rowsDecided_cons_of_not_compared ?_, ih]
        rintro ⟨hfix, hversion⟩
        simp [hfix, hversion] at hno
      · next hyes =>
        have hcompared : fix.Compared := by simpa [DistroFix.Compared] using hyes
        rw [rowsDecided_cons, imp_iff_right hcompared]
        by_cases hupstream : DpkgDecided (parseDpkgVersion fix.fixedVersion).upstream
            (parseDpkgVersion installedFull).upstream
        · simp only [hupstream.compare_eq, Option.bind_eq_bind, Option.bind_some, ne_eq, orderingSign_eq_zero]
          split
          · next hne =>
            rw [ih]
            exact ⟨fun h => ⟨⟨hupstream, fun heq => absurd heq hne⟩, fun _ => h⟩,
              fun h => h.2 fun hstops => hne hstops.2.1⟩
          · next heq =>
            rw [not_not] at heq
            by_cases hrevision : DpkgDecided (parseDpkgVersion installedFull).revision
                (parseDpkgVersion fix.fixedVersion).revision
            · simp only [hrevision.compare_eq, Option.bind_some, orderingSign_neg_iff]
              split
              · next hlt =>
                rw [ih]
                exact ⟨fun h => ⟨⟨hupstream, fun _ => hrevision⟩, fun _ => h⟩,
                  fun h => h.2 fun hstops => hstops.2.2 hlt⟩
              · next hge =>
                exact iff_of_true rfl ⟨⟨hupstream, fun _ => hrevision⟩,
                  fun hgoes => absurd ⟨hcompared, heq, hge⟩ hgoes⟩
            · rw [dpkgCompareStr_of_not_decided hrevision]
              exact iff_of_false Bool.noConfusion fun h => hrevision (h.1.2 heq)
        · simp only [dpkgCompareStr_of_not_decided hupstream, Option.bind_eq_bind, Option.bind_none]
          exact iff_of_false Bool.noConfusion fun h => hupstream h.1.1

/-- `check_backport` comes to an end exactly when the rows that it compares are decided. -/
theorem checkBackport_isSome_iff (table : DistroTable) (cveId : Bytes) (port : Port) :
    (checkBackport table cveId port).isSome ↔ BackportDecided table cveId port := by
  unfold checkBackport BackportDecided
  split
  · next hempty =>
    refine iff_of_true rfl fun hversion hdistro => absurd ?_ hdistro
    rw [hempty.resolve_left hversion]
    rfl
  · next hopen =>
    rw [not_or] at hopen
    dsimp only
    split
    · next hempty =>
      exact iff_of_true rfl fun _ hdistro hrevision => absurd hempty (not_or.mpr ⟨hdistro, hrevision⟩)
    · next hknown =>
      rw [not_or] at hknown
      rw [backportScan_isSome_iff, DistroTable.select_eq_filter, imp_iff_right hopen.1, imp_iff_right hknown.1,
        imp_iff_right hknown.2]

/-- The revision of a tag is a part of it. -/
theorem distroRevision_sublist (tag : Bytes) : (distroRevision tag).Sublist tag := by
  have hstrip (s marker : Bytes) : (stripPrefix s marker).Sublist s := by
    unfold stripPrefix
    split
    · exact List.drop_sublist _ _
    · exact List.Sublist.refl _
  unfold distroRevision
  split
  · split
    · exact List.nil_sublist _
    · exact (hstrip _ _).trans ((hstrip _ _).trans ((List.take_sublist _ _).trans (List.drop_sublist _ _)))
  · exact List.nil_sublist _

/-- So is the one that is parsed. -/
theorem parseDistroTag_revision_sublist (tag : Bytes) : (parseDistroTag tag).revision.Sublist tag := by
  unfold parseDistroTag
  dsimp only
  split_ifs
  · exact distroRevision_sublist tag
  · exact distroRevision_sublist tag
  · exact List.nil_sublist _

/-- Without zero bytes in the installed version and the fixed ones everything is decided. -/
theorem backportDecided_of_nulFree {table : DistroTable} {port : Port} (cveId : Bytes)
    (hversion : NulFree port.version) (hdistro : NulFree port.distro)
    (hrows : ∀ fix ∈ table.rows, NulFree fix.fixedVersion) : BackportDecided table cveId port := by
  intro _ _ _ before fix after hsplit _ _
  have hfix : NulFree fix.fixedVersion :=
    hrows fix (List.mem_filter.mp (hsplit ▸ List.mem_append_right before List.mem_cons_self)).1
  have hinstalled : NulFree (port.version ++ str "-" ++ (parseDistroTag port.distro).revision) := by
    intro hzero
    rcases List.mem_append.mp hzero with hzero | hzero
    · rcases List.mem_append.mp hzero with hzero | hzero
      · exact hversion hzero
      · exact absurd hzero (by decide)
    · exact hdistro.of_sublist (parseDistroTag_revision_sublist port.distro) hzero
  obtain ⟨-, hupstream, hrevision⟩ := hinstalled.parseDpkgVersion
  obtain ⟨-, hfixedUpstream, hfixedRevision⟩ := hfix.parseDpkgVersion
  exact ⟨hfixedUpstream.dpkgDecided hupstream, fun _ => hrevision.dpkgDecided hfixedRevision⟩

end ZeroTrust
