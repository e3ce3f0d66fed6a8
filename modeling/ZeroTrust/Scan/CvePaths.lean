import ZeroTrust.Scan.BackportProgress
import ZeroTrust.Scan.Cve

/-!
# The query paths agree

`lookup`, `match`, `verify_version` and `check_port` filter the same table in four loops. They accept the
same entries; only `check_port` also compares package versions, and it answers when these comparisons end.
-/

namespace ZeroTrust

/-- The names in a list that is separated by commas and blanks. -/
def commaFields (list : Bytes) : List Bytes :=
  match getlines 44 list with
  | [] => []
  | first :: rest => first :: rest.map (·.drop 1)

/-- The four paths agree on the CVE `c` for a port, and `check_port` has one finding for each covering
entry, in the order of the database. -/
structure CvePathsAgree (database : List CveEntry) (fixes : DistroTable) (now : ℕ → ℤ) (port : Port) (c : Bytes) :
    Prop where
  lookup_match : c ∈ commaFields (cveLookup database port.product port.version) ↔
    (cveMatch database c port.product port.version).isSome
  match_verify : (cveMatch database c port.product port.version).isSome ↔
    (verifyVersion database c port.product port.version).vulnerable = true
  verify_check : ∃ findings, checkPort database fixes now port = some findings ∧
    ((verifyVersion database c port.product port.version).vulnerable = true ↔ ∃ f ∈ findings, f.cveId = c) ∧
    List.Forall₂ (FindingFor fixes port) (database.filter (·.covers port.product port.version)) findings

variable {database : List CveEntry} {product version c : Bytes}

/-- Behind a first id every other one has its separator. -/
theorem foldl_lookup_append (entries : List CveEntry) {out : Bytes} (hout : out ≠ []) :
    entries.foldl (fun out entry => (if out.isEmpty then out else out ++ str ", ") ++ entry.cveId) out =
      out ++ entries.flatMap fun entry => 44 :: 32 :: entry.cveId := by
  induction entries generalizing out with
  | nil => exact (List.append_nil out).symm
  | cons entry entries ih =>
    have hcomma : (if out.isEmpty then out else out ++ str ", ") = out ++ [44, 32] :=
      if_neg (by rw [List.isEmpty_iff]; exact hout)
    rw [List.foldl_cons, hcomma, ih (by simp), List.flatMap_cons]
    simp

/-- Names without commas are read back from the list. -/
theorem getlines_names {first : Bytes} {names : List Bytes} (hfirst : first ≠ [] ∧ (44 : Byte) ∉ first)
    (hnames : ∀ name ∈ names, (44 : Byte) ∉ name) :
    getlines 44 (first ++ names.flatMap fun name => 44 :: 32 :: name) = first :: names.map (32 :: ·) := by
  induction names generalizing first with
  | nil => simpa using getlines_of_not_mem hfirst.2 hfirst.1
  | cons name names ih =>
    have hname : (32 :: name : Bytes) ≠ [] ∧ (44 : Byte) ∉ (32 :: name : Bytes) :=
      ⟨List.cons_ne_nil _ _, List.mem_cons.not.mpr (not_or.mpr ⟨by decide, hnames name List.mem_cons_self⟩)⟩
    rw [List.flatMap_cons, List.cons_append, getlines_append_cons hfirst.2,
      ih hname fun n hn => hnames n (List.mem_cons_of_mem _ hn), List.map_cons]

/-- `lookup` lists the covering entries. -/
theorem commaFields_cveLookup (hids : ∀ entry ∈ database, entry.cveId ≠ [] ∧ (44 : Byte) ∉ entry.cveId)
    (hproduct : product ≠ []) (hversion : version ≠ []) :
    commaFields (cveLookup database product version) = (database.filter (·.covers product version)).map (·.cveId) := by
  have hopen : (product.isEmpty || version.isEmpty) = false := by simp [hproduct, hversion]
  unfold cveLookup
  rw [hopen]
  cases hcovering : database.filter (·.covers product version) with
  | nil => rfl
  | cons entry entries =>
    have hcovers : ∀ e ∈ entry :: entries, e.cveId ≠ [] ∧ (44 : Byte) ∉ e.cveId := fun e he =>
      hids e (List.mem_filter.mp (hcovering ▸ he)).1
    have hrest : ∀ name ∈ entries.map (·.cveId), (44 : Byte) ∉ name := by
      intro name hname
      obtain ⟨e, he, rfl⟩ := List.mem_map.mp hname
      exact (hcovers e (List.mem_cons_of_mem _ he)).2
    have hlist := getlines_names (hcovers entry List.mem_cons_self) hrest
    have hfold : (entry :: entries).foldl (fun out entry =>
        (if out.isEmpty then out else out ++ str ", ") ++ entry.cveId) [] =
          entry.cveId ++ (entries.map (·.cveId)).flatMap fun name => 44 :: 32 :: name := by
      rw [List.foldl_cons, List.flatMap_map]
      exact foldl_lookup_append entries (hcovers entry List.mem_cons_self).1
    simp only [commaFields, Bool.false_eq_true, if_false, hfold, hlist, List.map_cons, List.map_map]
    congr 1

/-- `match` finds what the database has. -/
theorem cveMatch_isSome_iff (hproduct : product ≠ []) (hversion : version ≠ []) (hc : c ≠ []) :
    (cveMatch database c product version).isSome ↔
      ∃ entry ∈ database.filter (·.covers product version), entry.cveId = c := by
  have hopen : (product.isEmpty || version.isEmpty) = false := by simp [hproduct, hversion]
  have hname : c.isEmpty = false := by simpa using hc
  unfold cveMatch
  simp only [hopen, Bool.false_eq_true, if_false, Option.isSome_map, List.find?_isSome, hname, Bool.false_or,
    Bool.and_eq_true, beq_iff_eq, List.mem_filter]
  constructor
  · rintro ⟨entry, hmem, hid, hcovers⟩
    exact ⟨entry, ⟨hmem, hcovers⟩, hid⟩
  · rintro ⟨entry, ⟨hmem, hcovers⟩, hid⟩
    exact ⟨entry, hmem, hid, hcovers⟩

/-- `verify_version` is vulnerable when `match` finds something. -/
theorem verifyVersion_vulnerable_iff (hproduct : product ≠ []) (hversion : version ≠ []) :
    (cveMatch database c product version).isSome ↔ (verifyVersion database c product version).vulnerable = true := by
  have hopen : (product.isEmpty || version.isEmpty) = false := by simp [hproduct, hversion]
  unfold verifyVersion
  rw [hopen]
  cases cveMatch database c product version <;> simp

variable {fixes : DistroTable} {now : ℕ → ℤ} {port : Port}

/-- The loop of `check_port` comes to its end when the comparisons for the covering entries do. -/
theorem checkPortLoop_isSome_iff (entries : List CveEntry) (before : List Finding) :
    (checkPortLoop fixes now port entries before).isSome ↔
      ∀ entry ∈ entries, entry.covers port.product port.version → (checkBackport fixes entry.cveId port).isSome := by
  induction entries generalizing before with
  | nil => exact iff_of_true rfl nofun
  | cons entry entries ih =>
    rw [List.forall_mem_cons, checkPortLoop]
    split
    · next hcovers =>
      cases hbackport : checkBackport fixes entry.cveId port with
      | none => exact iff_of_false Bool.noConfusion fun h => Bool.noConfusion (h.1 hcovers)
      | some backport => exact (ih _).trans (and_iff_right fun _ => rfl).symm
    · next hcovers => exact (ih _).trans (and_iff_right fun h => absurd h hcovers).symm

/-- `check_port` comes to an end when the fixes of the covering entries are decided. -/
theorem checkPort_isSome_iff (hproduct : port.product ≠ []) (hversion : port.version ≠ []) :
    (checkPort database fixes now port).isSome ↔
      ∀ entry ∈ database, entry.covers port.product port.version → BackportDecided fixes entry.cveId port := by
  have hopen : (port.product.isEmpty || port.version.isEmpty) = false := by simp [hproduct, hversion]
  unfold checkPort
  rw [hopen]
  simp only [← checkBackport_isSome_iff]
  exact checkPortLoop_isSome_iff database []

/-- The four paths agree exactly when, for every covering entry, the rows of the fix table in front of which
none covers the installed version are decided: where a zero byte stands in a version, the texts before it must
differ. -/
theorem cve_paths_agree_iff (database : List CveEntry) (fixes : DistroTable) (now : ℕ → ℤ) (port : Port) (c : Bytes)
    (ids : ∀ entry ∈ database, entry.cveId ≠ [] ∧ (44 : Byte) ∉ entry.cveId) (product : port.product ≠ [])
    (version : port.version ≠ []) (name : c ≠ []) :
    CvePathsAgree database fixes now port c ↔
      ∀ entry ∈ database, entry.covers port.product port.version → BackportDecided fixes entry.cveId port := by
  rw [← checkPort_isSome_iff product version]
  constructor
  · intro h
    obtain ⟨findings, hfindings, -⟩ := h.verify_check
    exact Option.isSome_iff_exists.mpr ⟨findings, hfindings⟩
  · intro h
    obtain ⟨findings, hfindings⟩ := Option.isSome_iff_exists.mp h
    have hmade := checkPort_forall₂ hfindings product version
    have hmatch := @cveMatch_isSome_iff database _ _ c product version name
    have hverify := @verifyVersion_vulnerable_iff database _ _ c product version
    refine ⟨?_, hverify, findings, hfindings, ?_, hmade⟩
    · rw [commaFields_cveLookup ids product version, hmatch, List.mem_map]
    · have hnames : (database.filter (·.covers port.product port.version)).map (·.cveId) =
          findings.map (·.cveId) := by
        rw [← List.forall₂_eq_eq_eq, List.forall₂_map_left_iff, List.forall₂_map_right_iff]
        exact hmade.imp fun entry f hfor => hfor.fields.1.symm
      rw [← hverify, hmatch, ← List.mem_map, hnames, List.mem_map]

/-- A database and a fix table with one row each. -/
def bookwormDatabase : List CveEntry :=
  [{ cveId := str "CVE-2024-6387", product := str "OpenSSH", versionMin := str "8.5", versionMax := str "9.7" }]

/-- The fix of the entry. -/
def bookwormFix : DistroTable :=
  loadDistroFixes (str "CVE-2024-6387\tdebian\t12\topenssh\t1:9.2p1-2+deb12u3\tresolved\n")

/-- A server that shows its version, followed by these bytes, and its package. -/
def bookwormPort (behind : Bytes) : Port :=
  { number := 22, product := str "OpenSSH", version := str "9.2p1" ++ behind,
    distro := str "Debian (Debian-2+deb12u2)" }

/-- For an ordinary version all four paths report the entry. -/
theorem cve_paths_agree_openssh :
    CvePathsAgree bookwormDatabase bookwormFix (fun _ => 0) (bookwormPort []) (str "CVE-2024-6387") := by
  refine (cve_paths_agree_iff bookwormDatabase bookwormFix (fun _ => 0) (bookwormPort []) (str "CVE-2024-6387") ?_
    ?_ ?_ ?_).mpr ?_
  · intro entry hentry
    rw [bookwormDatabase, List.mem_singleton] at hentry
    subst hentry
    decide +kernel
  · decide
  · decide
  · decide
  · intro entry _ _
    exact backportDecided_of_nulFree entry.cveId (by decide) (by decide) (by decide +kernel)

/-- A zero byte behind the version: `lookup`, `match` and `verify_version` answer, `check_port` does not. -/
theorem cve_paths_disagree_at_nul :
    ¬CvePathsAgree bookwormDatabase bookwormFix (fun _ => 0) (bookwormPort [0]) (str "CVE-2024-6387") := by
  rintro ⟨-, -, findings, hfindings, -⟩
  have hhangs : checkPort bookwormDatabase bookwormFix (fun _ => 0) (bookwormPort [0]) = none := by decide +kernel
  rw [hhangs] at hfindings
  cases hfindings

end ZeroTrust
