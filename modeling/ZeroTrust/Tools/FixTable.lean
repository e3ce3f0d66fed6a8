import ZeroTrust.Tools.CveSync

/-!
# The fix table from its writer to its reader

What `load_distro_fixes` makes of the file that `write_output` writes.
-/

namespace ZeroTrust

/-- A code point is encoded as a byte of its own or as bytes above 127. -/
theorem utf8Char_cases {c : ℕ} {bytes : Bytes} (h : utf8Char c = some bytes) :
    c < 128 ∧ bytes = [c.toUInt8] ∨ 128 ≤ c ∧ ∀ b ∈ bytes, 128 ≤ b.toNat := by
  have hbyte : ∀ n : ℕ, 128 ≤ n → n < 256 → 128 ≤ n.toUInt8.toNat := by
    intro n hn hlt
    rwa [show n.toUInt8.toNat = n from UInt8.toNat_ofNat_of_lt' hlt]
  unfold utf8Char at h
  split_ifs at h with hone htwo hsurrogate hthree hfour
  all_goals cases h
  · exact .inl ⟨hone, rfl⟩
  all_goals
    right
    refine ⟨by omega, ?_⟩
    simp only [List.forall_mem_cons]
  · exact ⟨hbyte _ (by omega) (by omega), hbyte _ (by omega) (by omega), nofun⟩
  · exact ⟨hbyte _ (by omega) (by omega), hbyte _ (by omega) (by omega), hbyte _ (by omega) (by omega), nofun⟩
  · exact ⟨hbyte _ (by omega) (by omega), hbyte _ (by omega) (by omega), hbyte _ (by omega) (by omega),
      hbyte _ (by omega) (by omega), nofun⟩

/-- What has an encoding are the scalar values. -/
theorem utf8Char_isSome {c : ℕ} : (utf8Char c).isSome ↔ c.isValidChar := by
  unfold utf8Char Nat.isValidChar
  split_ifs
  all_goals
    simp only [Option.isSome_some, Option.isSome_none, true_iff, Bool.false_eq_true, false_iff]
    omega

/-- A text is encoded part by part. -/
theorem utf8_append (s t : Text) : utf8 (s ++ t) = (utf8 s).bind fun a => (utf8 t).map (a ++ ·) := by
  induction s with
  | nil => simp [utf8]
  | cons c s ih =>
    rw [List.cons_append, utf8, ih, utf8]
    cases utf8Char c with
    | none => rfl
    | some a =>
      cases utf8 s with
      | none => rfl
      | some b =>
        cases utf8 t with
        | none => rfl
        | some d =>
          change some (a ++ (b ++ d)) = some (a ++ b ++ d)
          rw [List.append_assoc]

/-- A text is encoded exactly if it consists of scalar values. -/
theorem utf8_isSome {t : Text} : (utf8 t).isSome ↔ ∀ c ∈ t, c.isValidChar := by
  induction t with
  | nil => exact iff_of_true rfl nofun
  | cons c t ih =>
    rw [List.forall_mem_cons, ← ih, ← utf8Char_isSome, utf8]
    cases utf8Char c with
    | none => simp
    | some a =>
      cases utf8 t with
      | none => simp
      | some b => simp

/-- An ASCII byte is in the encoding exactly if its character is in the text. -/
theorem mem_utf8 {t : Text} {bytes : Bytes} (h : utf8 t = some bytes) {b : Byte} (hb : b.toNat < 128) :
    b ∈ bytes ↔ b.toNat ∈ t := by
  induction t generalizing bytes with
  | nil =>
    cases h
    exact iff_of_false List.not_mem_nil List.not_mem_nil
  | cons c t ih =>
    rw [utf8, Option.bind_eq_bind, Option.bind_eq_some_iff] at h
    obtain ⟨head, hhead, h⟩ := h
    obtain ⟨tail, htail, h⟩ := Option.bind_eq_some_iff.mp h
    cases h
    rw [List.mem_append, List.mem_cons, ih htail]
    apply or_congr_left
    rcases utf8Char_cases hhead with ⟨hc, rfl⟩ | ⟨hc, hbytes⟩
    · rw [List.mem_singleton]
      constructor
      · rintro rfl
        exact UInt8.toNat_ofNat_of_lt' (by change c < 256; omega)
      · rintro rfl
        exact UInt8.ofNat_toNat.symm
    · constructor
      · exact fun hmem => absurd (hbytes b hmem) (by omega)
      · exact fun heq => absurd hb (by omega)

/-- A text that can be written into a field: scalar values other than the newline. -/
def Plain (t : Text) : Prop := ∀ c ∈ t, c.isValidChar ∧ c ≠ 10

instance decidableIsValidChar (c : ℕ) : Decidable c.isValidChar := inferInstanceAs (Decidable (_ ∨ _))

instance (t : Text) : Decidable (Plain t) := inferInstanceAs (Decidable (∀ c ∈ t, _))

/-- Two parts that can be written make a text that can. -/
theorem plain_append {s t : Text} : Plain (s ++ t) ↔ Plain s ∧ Plain t := List.forall_mem_append

/-- The encoding of a text that has one. -/
def encoded (t : Text) : Bytes := (utf8 t).getD []

/-- A text that can be written has an encoding. -/
theorem utf8_of_plain {t : Text} (h : Plain t) : utf8 t = some (encoded t) := by
  obtain ⟨bytes, hbytes⟩ := Option.isSome_iff_exists.mp (utf8_isSome.mpr fun c hc => (h c hc).1)
  rw [encoded, hbytes, Option.getD_some]

/-- Its encoding has no newline. -/
theorem newline_not_mem_encoded {t : Text} (h : Plain t) : (10 : Byte) ∉ encoded t := by
  rw [mem_utf8 (utf8_of_plain h) (by decide)]
  exact fun hmem => (h 10 hmem).2 rfl

/-- It is encoded part by part. -/
theorem encoded_append {s t : Text} (hs : Plain s) (ht : Plain t) : encoded (s ++ t) = encoded s ++ encoded t := by
  rw [encoded, utf8_append, utf8_of_plain hs, utf8_of_plain ht]
  rfl

/-- An ASCII character is encoded as its byte. -/
theorem encoded_cons {c : ℕ} (hc : c < 128) {t : Text} (ht : Plain t) : encoded (c :: t) = c.toUInt8 :: encoded t := by
  rw [encoded, utf8, utf8Char, if_pos hc, utf8_of_plain ht]
  rfl

/-- The lines of a file are encoded one by one. -/
theorem utf8_lines (lines : List Text) :
    utf8 (lines.flatMap (· ++ [10])) = (lines.mapM utf8).map fun bytes => bytes.flatMap (· ++ [10]) := by
  induction lines with
  | nil => rfl
  | cons line lines ih =>
    rw [List.flatMap_cons, List.append_assoc, utf8_append, utf8_append, ih, List.mapM_cons]
    cases utf8 line with
    | none => rfl
    | some a =>
      cases lines.mapM utf8 with
      | none => rfl
      | some b =>
        change some (a ++ (10 :: _)) = some ((a ++ [10]) ++ _)
        rw [List.append_assoc]
        rfl

/-- Lines that can be written are encoded one by one. -/
theorem mapM_utf8_of_plain {lines : List Text} (h : ∀ line ∈ lines, Plain line) :
    lines.mapM utf8 = some (lines.map encoded) := by
  induction lines with
  | nil => rfl
  | cons line lines ih =>
    obtain ⟨hline, hlines⟩ := List.forall_mem_cons.mp h
    rw [List.mapM_cons, utf8_of_plain hline, ih hlines]
    rfl

/-- A file of lines without newlines is read line by line. -/
theorem getlines_utf8 {lines : List Text} (h : ∀ line ∈ lines, Plain line) :
    ∃ content, utf8 (lines.flatMap (· ++ [10])) = some content ∧ getlines 10 content = lines.map encoded := by
  refine ⟨_, by rw [utf8_lines, mapM_utf8_of_plain h]; rfl, ?_⟩
  have hread := @getlines_flatMap 10 (lines.map encoded) (fun line hline => by
    obtain ⟨t, ht, rfl⟩ := List.mem_map.mp hline
    exact newline_not_mem_encoded (h t ht)) []
  rwa [List.append_nil, getlines, List.append_nil] at hread

/-- Digits can be written. -/
theorem plain_decimal (n : ℕ) : Plain ((decimal n).map UInt8.toNat) := by
  intro c hc
  obtain ⟨b, hb, rfl⟩ := List.mem_map.mp hc
  have hdigit := isDigit_of_mem_decimal hb
  simp only [isDigit, Bool.and_eq_true, decide_eq_true_eq, UInt8.le_iff_toNat_le, UInt8.reduceToNat] at hdigit
  unfold Nat.isValidChar
  omega

/-- So can a number of two digits. -/
theorem plain_twoDigits (n : ℕ) : Plain (twoDigits n) := by
  unfold twoDigits
  split_ifs
  · exact plain_append.mpr ⟨by decide, plain_decimal n⟩
  · exact plain_decimal n

/-- So can a time stamp. -/
theorem plain_iso (now : GmTime) : Plain now.iso := by
  unfold GmTime.iso
  simp only [plain_append]
  have hmark : Plain [45] ∧ Plain [84] ∧ Plain [58] ∧ Plain [90] := by decide
  obtain ⟨hdash, ht, hcolon, hz⟩ := hmark
  exact ⟨⟨⟨⟨⟨⟨⟨⟨⟨⟨⟨plain_decimal _, hdash⟩, plain_twoDigits _⟩, hdash⟩, plain_twoDigits _⟩, ht⟩,
    plain_twoDigits _⟩, hcolon⟩, plain_twoDigits _⟩, hcolon⟩, plain_twoDigits _⟩, hz⟩

/-- Every line of the head can be written and is a comment. -/
theorem headerLines_comment (now : GmTime) :
    ∀ line ∈ headerLines now, Plain line ∧ ∃ rest, line = 35 :: rest := by
  unfold headerLines
  simp only [List.forall_mem_cons]
  refine ⟨⟨by decide +kernel, _, rfl⟩, ⟨by decide +kernel, _, rfl⟩, ⟨by decide +kernel, _, rfl⟩, ⟨?_, _, rfl⟩, nofun⟩
  exact plain_append.mpr ⟨by decide +kernel, plain_iso now⟩

/-- A comment gives no row. -/
theorem parseDistroFix_comment {t : Text} (h : Plain (35 :: t)) : parseDistroFix (encoded (35 :: t)) = none := by
  rw [encoded_cons (by decide) (List.forall_mem_cons.mp h).2]
  exact if_pos (.inr rfl)

/-- The row that the reader is to make of a row. -/
def FixRow.fix (row : FixRow) : Option DistroFix := do
  return { cve := ← utf8 (blankTabs row.cve), distro := toLower (← utf8 (blankTabs row.distro)),
           release := ← utf8 (blankTabs row.release), package := ← utf8 (blankTabs row.package),
           fixedVersion := ← utf8 (blankTabs row.fixedVersion),
           status := toLower (← utf8 (blankTabs row.status)) }

/-- The fields that are not made by the writer. -/
def FixRow.foreign (row : FixRow) : List Text := [row.cve, row.release, row.package, row.fixedVersion, row.status]

/-- Rows of a CVE: its id starts as one, and the distribution and the address are those of a tracker. -/
structure FixRow.Tracked (row : FixRow) : Prop where
  cve : text "CVE-" <+: row.cve
  tracker : row.distro = text "ubuntu" ∧ row.sourceUrl = text "https://ubuntu.com/security/" ++ row.cve ∨
    row.distro = text "debian" ∧ row.sourceUrl = text "https://security-tracker.debian.org/tracker/" ++ row.cve

/-- Replacing the tabs does not change whether a text can be written. -/
theorem plain_blankTabs {t : Text} : Plain (blankTabs t) ↔ Plain t := by
  unfold Plain blankTabs
  rw [List.forall_mem_map]
  apply forall₂_congr
  intro c _
  split_ifs with htab
  · subst htab
    decide
  · rfl

/-- No tab is left in a field. -/
theorem tab_not_mem_encoded {t : Text} (h : Plain t) : (9 : Byte) ∉ encoded (blankTabs t) := by
  rw [mem_utf8 (utf8_of_plain (plain_blankTabs.mpr h)) (by decide), blankTabs, List.mem_map]
  rintro ⟨c, -, hc⟩
  split_ifs at hc with htab
  · exact absurd hc (by decide)
  · exact htab hc

/-- A tracked row can be written when its foreign fields can. -/
theorem FixRow.Tracked.plain_fields {row : FixRow} (h : row.Tracked) (hforeign : ∀ t ∈ row.foreign, Plain t) :
    ∀ t ∈ row.fields, Plain t := by
  simp only [foreign, fields, List.forall_mem_cons] at hforeign ⊢
  obtain ⟨hcve, hrelease, hpackage, hversion, hstatus, -⟩ := hforeign
  rcases h.tracker with ⟨hdistro, hurl⟩ | ⟨hdistro, hurl⟩
  · rw [hdistro, hurl, plain_append]
    exact ⟨hcve, by decide, hrelease, hpackage, hversion, hstatus, ⟨by decide, hcve⟩, nofun⟩
  · rw [hdistro, hurl, plain_append]
    exact ⟨hcve, by decide, hrelease, hpackage, hversion, hstatus, ⟨by decide, hcve⟩, nofun⟩

/-- Fields that are separated by tabs. -/
def tabbed (fields : List Text) (last : Text) : Text := (fields.map blankTabs).flatMap (· ++ [9]) ++ blankTabs last

/-- The first field and the tab behind it. -/
theorem tabbed_cons (t : Text) (fields : List Text) (last : Text) :
    tabbed (t :: fields) last = blankTabs t ++ 9 :: tabbed fields last := by
  simp [tabbed]

/-- A row is its fields, separated by tabs. -/
theorem formatRow_eq (row : FixRow) : formatRow row =
    tabbed [row.cve, row.distro, row.release, row.package, row.fixedVersion, row.status] row.sourceUrl := by
  simp [formatRow, tabbed, FixRow.fields, List.intercalate]

/-- Fields that can be written make a line that can. -/
theorem plain_tabbed {fields : List Text} {last : Text} (hfields : ∀ t ∈ fields, Plain t) (hlast : Plain last) :
    Plain (tabbed fields last) := by
  induction fields with
  | nil => exact plain_blankTabs.mpr hlast
  | cons t fields ih =>
    obtain ⟨ht, hfields⟩ := List.forall_mem_cons.mp hfields
    rw [tabbed_cons, plain_append]
    exact ⟨plain_blankTabs.mpr ht, List.forall_mem_cons.mpr ⟨by decide, ih hfields⟩⟩

/-- The first field is encoded on its own. -/
theorem encoded_tabbed_cons {t : Text} {fields : List Text} {last : Text} (ht : Plain t)
    (hrest : Plain (tabbed fields last)) :
    encoded (tabbed (t :: fields) last) = encoded (blankTabs t) ++ 9 :: encoded (tabbed fields last) := by
  rw [tabbed_cons, encoded_append (plain_blankTabs.mpr ht) (List.forall_mem_cons.mpr ⟨by decide, hrest⟩),
    encoded_cons (by decide) hrest]
  rfl

/-- The reader takes a line apart into the fields of which it was made. -/
theorem splitByTab_tabbed {fields : List Text} {last : Text} (hfields : ∀ t ∈ fields, Plain t)
    (hlast : Plain last) (hne : encoded (blankTabs last) ≠ []) :
    splitByTab (encoded (tabbed fields last)) =
      fields.map (fun t => encoded (blankTabs t)) ++ [encoded (blankTabs last)] := by
  induction fields with
  | nil => exact getlines_of_not_mem (tab_not_mem_encoded hlast) hne
  | cons t fields ih =>
    obtain ⟨ht, hfields⟩ := List.forall_mem_cons.mp hfields
    rw [encoded_tabbed_cons ht (plain_tabbed hfields hlast), splitByTab,
      getlines_append_cons (tab_not_mem_encoded ht)]
    exact congrArg _ (ih hfields)

/-- A tracked row that can be written is read as it was meant. -/
theorem parseDistroFix_formatRow {row : FixRow} (h : row.Tracked) (hforeign : ∀ t ∈ row.foreign, Plain t) :
    Plain (formatRow row) ∧ parseDistroFix (encoded (formatRow row)) = row.fix ∧ row.fix ≠ none := by
  have hplain := h.plain_fields hforeign
  simp only [FixRow.fields, List.forall_mem_cons] at hplain
  obtain ⟨hcve, hdistro, hrelease, hpackage, hversion, hstatus, hurl, -⟩ := hplain
  have hfields : ∀ t ∈ [row.cve, row.distro, row.release, row.package, row.fixedVersion, row.status], Plain t := by
    simp only [List.forall_mem_cons]
    exact ⟨hcve, hdistro, hrelease, hpackage, hversion, hstatus, nofun⟩
  have hline := plain_tabbed hfields hurl
  refine ⟨formatRow_eq row ▸ hline, ?_⟩
  -- The line starts with the letter of the id, and ends with an address.
  obtain ⟨number, hnumber⟩ := h.cve
  have hhead : ∃ rest, encoded (formatRow row) = 67 :: rest := by
    have hid : Plain (blankTabs (text "VE-" ++ number)) := by
      rw [plain_blankTabs]
      exact (List.forall_mem_cons.mp (hnumber ▸ hcve)).2
    rw [formatRow_eq, encoded_tabbed_cons hcve (plain_tabbed (List.forall_mem_cons.mp hfields).2 hurl), ← hnumber]
    exact ⟨_, congrArg (· ++ _) (encoded_cons (c := 67) (by decide) hid)⟩
  have hlast : encoded (blankTabs row.sourceUrl) ≠ [] := by
    obtain ⟨rest, hrest⟩ : ∃ rest, row.sourceUrl = 104 :: rest := by
      rcases h.tracker with ⟨-, heq⟩ | ⟨-, heq⟩
      · exact ⟨_, heq⟩
      · exact ⟨_, heq⟩
    rw [hrest] at hurl ⊢
    rw [show blankTabs (104 :: rest) = 104 :: blankTabs rest from rfl,
      encoded_cons (by decide) (plain_blankTabs.mpr (List.forall_mem_cons.mp hurl).2)]
    exact List.cons_ne_nil _ _
  obtain ⟨rest, hrest⟩ := hhead
  have hsplit := splitByTab_tabbed hfields hurl hlast
  rw [← formatRow_eq] at hsplit
  have hfix : row.fix = some
      { cve := encoded (blankTabs row.cve), distro := toLower (encoded (blankTabs row.distro)),
        release := encoded (blankTabs row.release), package := encoded (blankTabs row.package),
        fixedVersion := encoded (blankTabs row.fixedVersion),
        status := toLower (encoded (blankTabs row.status)) } := by
    unfold FixRow.fix
    rw [utf8_of_plain (plain_blankTabs.mpr hcve), utf8_of_plain (plain_blankTabs.mpr hdistro),
      utf8_of_plain (plain_blankTabs.mpr hrelease), utf8_of_plain (plain_blankTabs.mpr hpackage),
      utf8_of_plain (plain_blankTabs.mpr hversion), utf8_of_plain (plain_blankTabs.mpr hstatus)]
    rfl
  constructor
  · rw [hfix, parseDistroFix, if_neg, hsplit]
    · rfl
    · rw [hrest]
      rintro (h | h)
      · cases h
      · cases h
  · rw [hfix]
    exact Option.some_ne_none _

/-- Where a result of a list of calls comes from. -/
theorem exists_of_mem_mapM {α β : Type} {f : α → Option β} {l : List α} {results : List β}
    (h : l.mapM f = some results) {y : β} (hy : y ∈ results) : ∃ x ∈ l, f x = some y := by
  induction l generalizing results with
  | nil =>
    cases h
    cases hy
  | cons x l ih =>
    rw [List.mapM_cons, Option.bind_eq_bind, Option.bind_eq_some_iff] at h
    obtain ⟨z, hz, h⟩ := h
    obtain ⟨rest, hrest, h⟩ := Option.bind_eq_some_iff.mp h
    cases h
    rcases List.mem_cons.mp hy with rfl | hy
    · exact ⟨x, List.mem_cons_self, hz⟩
    · obtain ⟨x', hx', hf⟩ := ih hrest hy
      exact ⟨x', List.mem_cons_of_mem x hx', hf⟩

variable {convert : CaseConversion} {cve : Text} {row : FixRow}

/-- A row that is made for a CVE says so, and names its tracker with an address there. -/
structure FixRow.MadeFor (row : FixRow) (cve : Text) : Prop where
  id : row.cve = cve
  tracker : row.distro = text "ubuntu" ∧ row.sourceUrl = text "https://ubuntu.com/security/" ++ cve ∨
    row.distro = text "debian" ∧ row.sourceUrl = text "https://security-tracker.debian.org/tracker/" ++ cve

/-- Rows that are made for a CVE id are tracked. -/
theorem FixRow.MadeFor.tracked (h : row.MadeFor cve) (hcve : text "CVE-" <+: cve) : row.Tracked where
  cve := h.id.symm ▸ hcve
  tracker := h.id.symm ▸ h.tracker

/-- Ubuntu's statuses are about the CVE. -/
theorem ubuntuRow_madeFor {name : Option Text} {st : TrackerValue}
    (h : ubuntuRow convert cve name st = some (some row)) : row.MadeFor cve := by
  unfold ubuntuRow at h
  simp only [Option.bind_eq_bind, Option.bind_eq_some_iff] at h
  obtain ⟨-, -, codename, -, -, -, status, -, h⟩ := h
  split at h
  all_goals
    obtain ⟨fixed, -, h⟩ := Option.bind_eq_some_iff.mp h
    obtain ⟨package, -, h⟩ := Option.bind_eq_some_iff.mp (Option.some.inj h)
    obtain ⟨version, -, h⟩ := Option.bind_eq_some_iff.mp h
    cases h
    exact ⟨rfl, .inl ⟨rfl, rfl⟩⟩

/-- Every row of a document is. -/
theorem parseUbuntu_madeFor {doc : Option TrackerValue} {rows : List (Option FixRow)}
    (h : parseUbuntu convert cve doc = some rows) (hrow : some row ∈ rows) : row.MadeFor cve := by
  cases doc with
  | none =>
    cases h
    cases hrow
  | some doc =>
    simp only [parseUbuntu, Option.bind_eq_bind, Option.bind_eq_some_iff] at h
    obtain ⟨-, -, packages, -, groups, hgroups, h⟩ := h
    cases h
    obtain ⟨group, hgroup, hrow⟩ := List.mem_flatten.mp hrow
    obtain ⟨pkg, -, hpkg⟩ := exists_of_mem_mapM hgroups hgroup
    simp only [Option.bind_eq_some_iff] at hpkg
    obtain ⟨name, -, -, -, statuses, -, hstatuses⟩ := hpkg
    obtain ⟨st, -, hst⟩ := exists_of_mem_mapM hstatuses hrow
    exact ubuntuRow_madeFor hst

/-- Debian's releases are about the CVE. -/
theorem debianRow_madeFor {pkg codename : Text} {rel : TrackerValue} {rows : List (Option FixRow)}
    (h : debianRow convert cve pkg codename rel = some rows) (hrow : some row ∈ rows) : row.MadeFor cve := by
  unfold debianRow at h
  split at h
  · simp only [Option.bind_eq_bind, Option.bind_eq_some_iff] at h
    obtain ⟨-, -, status, -, fixed, -, h⟩ := h
    cases h
    obtain ⟨version, -, h⟩ := Option.bind_eq_some_iff.mp (List.mem_singleton.mp hrow).symm
    cases h
    exact ⟨rfl, .inr ⟨rfl, rfl⟩⟩
  · cases h
    cases hrow

/-- Every row of an index is. -/
theorem rowsFromDebianIndex_madeFor {index : List (Text × Text × TrackerValue)} {rows : List (Option FixRow)}
    (h : rowsFromDebianIndex convert cve index = some rows) (hrow : some row ∈ rows) : row.MadeFor cve := by
  simp only [rowsFromDebianIndex, Option.bind_eq_bind, Option.bind_eq_some_iff] at h
  obtain ⟨groups, hgroups, h⟩ := h
  cases h
  obtain ⟨group, hgroup, hrow⟩ := List.mem_flatten.mp hrow
  obtain ⟨⟨key, pkg, cveData⟩, -, hentry⟩ := exists_of_mem_mapM hgroups hgroup
  simp only [Option.bind_eq_some_iff] at hentry
  obtain ⟨-, -, releases, -, results, hresults, h⟩ := hentry
  cases h
  obtain ⟨result, hresult, hrow⟩ := List.mem_flatten.mp hrow
  obtain ⟨⟨codename, rel⟩, -, hrel⟩ := exists_of_mem_mapM hresults hresult
  exact debianRow_madeFor hrel hrow

/-- A row that `parse_ubuntu` or `rows_from_debian_index` makes of some tracker data for a CVE id. -/
def FixRow.Produced (convert : CaseConversion) (row : FixRow) : Prop :=
  ∃ cve, text "CVE-" <+: cve ∧ ∃ doc rows, some row ∈ rows ∧
    (parseUbuntu convert cve doc = some rows ∨
      rowsFromDebianIndex convert cve (buildDebianIndex convert doc) = some rows)

/-- Such rows are tracked. -/
theorem FixRow.Produced.tracked (h : row.Produced convert) : row.Tracked := by
  obtain ⟨cve, hcve, doc, rows, hrow, hubuntu | hdebian⟩ := h
  · exact (parseUbuntu_madeFor hubuntu hrow).tracked hcve
  · exact (rowsFromDebianIndex_madeFor hdebian hrow).tracked hcve

/-- The reader loads one row for each row that was written, in order, with the fields that were meant. -/
def FixTableAgrees (now : GmTime) (rows : List FixRow) : Prop :=
  ∃ content, writeOutput now rows = some content ∧ (loadDistroFixes content).rows.map some = rows.map FixRow.fix

/-- The lines of the file. -/
theorem writeOutput_eq (now : GmTime) (rows : List FixRow) :
    writeOutput now rows = utf8 ((headerLines now ++ rows.map formatRow).flatMap (· ++ [10])) := by
  rw [writeOutput, List.flatMap_append, List.flatMap_map]

/-- Rows whose foreign fields can be written are read as they were meant. -/
theorem fixTableAgrees_of_plain (now : GmTime) {rows : List FixRow} (hrows : ∀ row ∈ rows, row.Tracked)
    (hplain : ∀ row ∈ rows, ∀ t ∈ row.foreign, Plain t) : FixTableAgrees now rows := by
  have hlines : ∀ line ∈ headerLines now ++ rows.map formatRow, Plain line := by
    rw [List.forall_mem_append, List.forall_mem_map]
    exact ⟨fun line hline => (headerLines_comment now line hline).1,
      fun row hrow => (parseDistroFix_formatRow (hrows row hrow) (hplain row hrow)).1⟩
  obtain ⟨content, hcontent, hread⟩ := getlines_utf8 hlines
  refine ⟨content, (writeOutput_eq now rows).trans hcontent, ?_⟩
  rw [rows_loadDistroFixes, hread, List.map_append, List.filterMap_append]
  have hhead : ((headerLines now).map encoded).filterMap parseDistroFix = [] := by
    rw [List.filterMap_map, List.filterMap_eq_nil_iff]
    intro line hline
    obtain ⟨hp, rest, rfl⟩ := headerLines_comment now line hline
    exact parseDistroFix_comment hp
  rw [hhead, List.nil_append, List.map_map, List.filterMap_map]
  clear hread hcontent hlines
  induction rows with
  | nil => rfl
  | cons row rows ih =>
    obtain ⟨hrow, hrows⟩ := List.forall_mem_cons.mp hrows
    obtain ⟨hp, hplain⟩ := List.forall_mem_cons.mp hplain
    obtain ⟨-, hparse, hne⟩ := parseDistroFix_formatRow hrow hp
    obtain ⟨fix, hfix⟩ := Option.ne_none_iff_exists'.mp hne
    rw [List.filterMap_cons, show (parseDistroFix ∘ encoded ∘ formatRow) row = some fix from hparse.trans hfix,
      List.map_cons, List.map_cons, ih hrows hplain, hfix]

/-- No field of a loaded row contains a newline. -/
theorem newline_not_mem_of_loaded {content : Bytes} {fix : DistroFix} (h : fix ∈ (loadDistroFixes content).rows) :
    ∀ field ∈ [fix.cve, fix.release, fix.package, fix.fixedVersion, fix.status], (10 : Byte) ∉ field := by
  rw [rows_loadDistroFixes, List.mem_filterMap] at h
  obtain ⟨line, hline, hparse⟩ := h
  have hnewline := not_mem_of_mem_getlines hline
  have hpart : ∀ {field : Bytes}, field ∈ splitByTab line → (10 : Byte) ∉ field :=
    fun hfield hmem => hnewline ((sublist_of_mem_getlines hfield).subset hmem)
  have hlower : ∀ {field : Bytes}, (10 : Byte) ∉ field → (10 : Byte) ∉ toLower field := by
    intro field hfield hmem
    obtain ⟨c, hc, hcase⟩ := List.mem_map.mp hmem
    unfold toLowerByte at hcase
    split_ifs at hcase with hupper
    · simp only [Bool.and_eq_true, decide_eq_true_eq, UInt8.le_iff_toNat_le, UInt8.reduceToNat] at hupper
      have hsum := congrArg UInt8.toNat hcase
      rw [UInt8.toNat_add] at hsum
      simp only [UInt8.reduceToNat] at hsum
      omega
    · exact hfield (hcase ▸ hc)
  unfold parseDistroFix at hparse
  split at hparse
  · cases hparse
  · split at hparse
    · next cve distro release package fixedVersion status rest hfields =>
      cases hparse
      simp only [List.forall_mem_cons]
      exact ⟨hpart (by simp [hfields]), hpart (by simp [hfields]), hpart (by simp [hfields]),
        hpart (by simp [hfields]), hlower (hpart (by simp [hfields])), nofun⟩
    · cases hparse

/-- A text whose encoding has no newline has none. -/
theorem plain_of_utf8 {t : Text} {bytes : Bytes} (h : utf8 (blankTabs t) = some bytes) (hbytes : (10 : Byte) ∉ bytes) :
    Plain t := by
  rw [← plain_blankTabs]
  intro c hc
  refine ⟨utf8_isSome.mp (Option.isSome_of_eq_some h) c hc, ?_⟩
  rintro rfl
  exact hbytes ((mem_utf8 h (by decide)).mpr hc)

/-- Rows that are read as they were meant have foreign fields that can be written. -/
theorem plain_of_fixTableAgrees {now : GmTime} {rows : List FixRow} (h : FixTableAgrees now rows) :
    ∀ row ∈ rows, ∀ t ∈ row.foreign, Plain t := by
  obtain ⟨content, -, hloaded⟩ := h
  intro row hrow
  have hmem : row.fix ∈ (loadDistroFixes content).rows.map some := hloaded ▸ List.mem_map_of_mem hrow
  obtain ⟨fix, hfix, hmeant⟩ := List.mem_map.mp hmem
  have hfields := newline_not_mem_of_loaded hfix
  have hparts := hmeant.symm
  unfold FixRow.fix at hparts
  simp only [Option.bind_eq_bind, Option.bind_eq_some_iff] at hparts
  obtain ⟨cve, hcve, distro, hdistro, release, hrelease, package, hpackage, version, hversion, status, hstatus,
    hparts⟩ := hparts
  cases hparts
  simp only [FixRow.foreign, List.forall_mem_cons] at hfields ⊢
  obtain ⟨hc, hr, hp, hv, hs, -⟩ := hfields
  have hs' : (10 : Byte) ∉ status := fun hmem => hs (List.mem_map.mpr ⟨10, hmem, rfl⟩)
  exact ⟨plain_of_utf8 hcve hc, plain_of_utf8 hrelease hr, plain_of_utf8 hpackage hp, plain_of_utf8 hversion hv,
    plain_of_utf8 hstatus hs', nofun⟩

/-- Writer and reader agree on the rows of the trackers exactly if no id, release, package, fixed version or
status has a newline or a code point that UTF-8 cannot spell. -/
theorem fix_table_agrees_iff (convert : CaseConversion) (now : GmTime) (rows : List FixRow)
    (hrows : ∀ row ∈ rows, row.Produced convert) :
    FixTableAgrees now rows ↔ ∀ row ∈ rows, ∀ t ∈ row.foreign, Plain t :=
  ⟨plain_of_fixTableAgrees, fixTableAgrees_of_plain now fun row hrow => (hrows row hrow).tracked⟩

/-- Conversion of ASCII letters. -/
def asciiCase : CaseConversion where
  lower := fun t => t.map fun c => if 65 ≤ c ∧ c ≤ 90 then c + 32 else c
  upper := fun t => t.map fun c => if 97 ≤ c ∧ c ≤ 122 then c - 32 else c

/-- A document about OpenSSH on Ubuntu 22.04. -/
def jammyDocument (fixed : Text) : TrackerValue :=
  .object [(text "packages", .array [.object [(text "name", .string (text "openssh")),
    (text "statuses", .array [.object [(text "release_codename", .string (text "jammy")),
      (text "status", .string (text "released")), (text "description", .string fixed)]])]])]

/-- The row that is made of it. -/
def jammyRow (fixed : Text) : FixRow where
  cve := text "CVE-2024-6387"
  distro := text "ubuntu"
  release := text "22.04"
  package := text "openssh"
  fixedVersion := fixed
  status := text "released"
  sourceUrl := text "https://ubuntu.com/security/CVE-2024-6387"

/-- The parser makes it. -/
theorem jammyRow_produced {fixed : Text} (h : fixed ≠ []) : (jammyRow fixed).Produced asciiCase := by
  refine ⟨text "CVE-2024-6387", ⟨text "2024-6387", by decide⟩, some (jammyDocument fixed), [some (jammyRow fixed)],
    List.mem_singleton_self _, .inl ?_⟩
  cases fixed with
  | nil => exact absurd rfl h
  | cons c fixed => rfl

/-- A dump about OpenSSH on Debian 11 and 12; a package that is no object is passed over. -/
def debianDump : TrackerValue :=
  .object [(text "linux", .null), (text "openssh", .object [(text "CVE-2024-6387", .object [(text "releases",
    .object [(text "bullseye", .object [(text "status", .string (text "open"))]),
      (text "bookworm", .object [(text "status", .string (text "Resolved")),
        (text "fixed_version", .string (text "1:9.2p1-2+deb12u3"))])])])])]

/-- A row of the dump. -/
def debianDumpRow (release fixed status : Text) : FixRow where
  cve := text "CVE-2024-6387"
  distro := text "debian"
  release := release
  package := text "openssh"
  fixedVersion := fixed
  status := status
  sourceUrl := text "https://security-tracker.debian.org/tracker/CVE-2024-6387"

/-- The rows of both trackers for a CVE. -/
def openRows : List FixRow :=
  [jammyRow (text "1:8.9p1-3ubuntu0.10"), debianDumpRow (text "11") [] (text "open"),
    debianDumpRow (text "12") (text "1:9.2p1-2+deb12u3") (text "resolved")]

/-- Three rows of the two trackers. -/
theorem fix_table_agrees_jammy : FixTableAgrees ⟨2024, 7, 1, 12, 0, 0⟩ openRows := by
  have hdump : rowsFromDebianIndex asciiCase (text "CVE-2024-6387") (buildDebianIndex asciiCase (some debianDump)) =
      some [some (debianDumpRow (text "11") [] (text "open")),
        some (debianDumpRow (text "12") (text "1:9.2p1-2+deb12u3") (text "resolved"))] := by
    decide +kernel
  have hproduced {row : FixRow} (hrow : some row ∈ [some (debianDumpRow (text "11") [] (text "open")),
      some (debianDumpRow (text "12") (text "1:9.2p1-2+deb12u3") (text "resolved"))]) : row.Produced asciiCase :=
    ⟨text "CVE-2024-6387", ⟨text "2024-6387", by decide⟩, some debianDump, _, hrow, .inr hdump⟩
  apply (fix_table_agrees_iff asciiCase _ _ ?_).mpr
  · decide +kernel
  · simp only [openRows, List.forall_mem_cons]
    exact ⟨jammyRow_produced (by decide), hproduced (by simp), hproduced (by simp), nofun⟩

/-- A newline in the fixed version cuts the row into two lines, of which the reader takes neither. -/
theorem fix_table_loses_row :
    (jammyRow (text "1:8.9p1\n-3ubuntu0.10")).Produced asciiCase ∧
      ¬FixTableAgrees ⟨2024, 7, 1, 12, 0, 0⟩ [jammyRow (text "1:8.9p1\n-3ubuntu0.10")] := by
  refine ⟨jammyRow_produced (by decide), fun hagrees => ?_⟩
  have hplain := plain_of_fixTableAgrees hagrees _ (List.mem_singleton_self _) (text "1:8.9p1\n-3ubuntu0.10")
    (by decide)
  exact absurd hplain (by decide)

end ZeroTrust
