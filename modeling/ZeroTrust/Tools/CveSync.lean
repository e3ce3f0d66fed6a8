import ZeroTrust.Scan.DistroFix

/-!
# The writer of the fix table

`tools/cve_sync.py`: the rows that are made of the Ubuntu and Debian trackers, and the file that
`load_distro_fixes` reads. A Python string is a list of code points, among them single surrogates, which
JSON can spell and UTF-8 cannot. The case conversions of Python are parameters.
-/

namespace ZeroTrust

/-- A Python `str`. -/
abbrev Text := List ℕ

/-- The code points of a literal. -/
def text (s : String) : Text := s.toList.map Char.toNat

/-- What `json.loads` makes of a document. -/
inductive TrackerValue
  | null
  | bool (b : Bool)
  | number (q : ℚ)
  | string (s : Text)
  | array (values : List TrackerValue)
  | object (members : List (Text × TrackerValue))

/-- `bool(value)`. -/
def TrackerValue.truthy : TrackerValue → Bool
  | .null => false
  | .bool b => b
  | .number q => q ≠ 0
  | .string s => !s.isEmpty
  | .array values => !values.isEmpty
  | .object members => !members.isEmpty

/-- `value.get(key)`: no result for a value without that method, `null` for a missing member. -/
def TrackerValue.get (key : String) : TrackerValue → Option TrackerValue
  | .object members => some ((members.lookup (text key)).getD .null)
  | _ => none

/-- `value or ""`, unless that is no string: it has no `lower`, and no `replace` in `format_row`. -/
def TrackerValue.orEmpty (value : TrackerValue) : Option Text :=
  if !value.truthy then some []
  else match value with
    | .string s => some s
    | _ => none

/-- `for x in value or []`, where the members of what is not a list have no `get`. -/
def TrackerValue.orNone (value : TrackerValue) : Option (List TrackerValue) :=
  if !value.truthy then some []
  else match value with
    | .array values => some values
    | _ => none

/-- `(value or {}).items()`. -/
def TrackerValue.items (value : TrackerValue) : Option (List (Text × TrackerValue)) :=
  if !value.truthy then some []
  else match value with
    | .object members => some members
    | _ => none

/-- A row of the table. -/
structure FixRow where
  cve : Text
  distro : Text
  release : Text
  package : Text
  fixedVersion : Text
  status : Text
  sourceUrl : Text
deriving DecidableEq

/-- `UBUNTU_CODENAME_TO_RELEASE`. -/
def ubuntuCodenameToRelease : List (Text × Text) :=
  [("trusty", "14.04"), ("xenial", "16.04"), ("bionic", "18.04"), ("focal", "20.04"), ("jammy", "22.04"),
    ("kinetic", "22.10"), ("lunar", "23.04"), ("mantic", "23.10"), ("noble", "24.04"), ("oracular", "24.10"),
    ("plucky", "25.04"), ("questing", "25.10"), ("esm-infra/xenial", "16.04-esm"),
    ("esm-infra/bionic", "18.04-esm"), ("esm-infra/focal", "20.04-esm"), ("esm-infra/jammy", "22.04-esm"),
    ("esm-apps/xenial", "16.04-esm-apps"), ("esm-apps/bionic", "18.04-esm-apps"),
    ("esm-apps/focal", "20.04-esm-apps"), ("esm-apps/jammy", "22.04-esm-apps"),
    ("esm-apps/noble", "24.04-esm-apps")].map fun (codename, release) => (text codename, text release)

/-- `DEBIAN_CODENAME_TO_RELEASE`. -/
def debianCodenameToRelease : List (Text × Text) :=
  [("wheezy", "7"), ("jessie", "8"), ("stretch", "9"), ("buster", "10"), ("bullseye", "11"), ("bookworm", "12"),
    ("trixie", "13"), ("forky", "14"), ("sid", "sid")].map fun (codename, release) => (text codename, text release)

/-- `str.lower` and `str.upper`. -/
structure CaseConversion where
  lower : Text → Text
  upper : Text → Text

/-- One status of a package in `parse_ubuntu`. The parser puts a name and a description into the row whatever they
are; a row that `format_row` fails on, since one of them is no string, is none. -/
def ubuntuRow (convert : CaseConversion) (cve : Text) (name : Option Text) (st : TrackerValue) :
    Option (Option FixRow) := do
  let codename := convert.lower (← (← st.get "release_codename").orEmpty)
  let status := convert.lower (← (← st.get "status").orEmpty)
  let fixed ← if status = text "released" then (st.get "description").map TrackerValue.orEmpty else some (some [])
  return do
    return { cve := cve, distro := text "ubuntu",
             release := (ubuntuCodenameToRelease.lookup codename).getD codename, package := ← name,
             fixedVersion := ← fixed, status := status, sourceUrl := text "https://ubuntu.com/security/" ++ cve }

/-- `parse_ubuntu`, on what `json.loads` gives; no result for a document that it fails on. -/
def parseUbuntu (convert : CaseConversion) (cve : Text) (doc : Option TrackerValue) : Option (List (Option FixRow)) :=
  match doc with
  | none => some []
  | some doc => do
    let packages ← (← doc.get "packages").orNone
    let rows ← packages.mapM fun pkg => do
      let name := (← pkg.get "name").orEmpty
      (← (← pkg.get "statuses").orNone).mapM (ubuntuRow convert cve name)
    return rows.flatten

/-- `build_debian_index`: the packages and the data for each CVE id, in the order of the document. -/
def buildDebianIndex (convert : CaseConversion) (doc : Option TrackerValue) : List (Text × Text × TrackerValue) :=
  match doc with
  | some (.object packages) => packages.flatMap fun (pkg, cves) =>
    match cves with
    | .object cves => cves.filterMap fun (cve, cveData) =>
      match cveData with
      | .object _ => if text "CVE-" <+: convert.upper cve then some (convert.upper cve, pkg, cveData) else none
      | _ => none
    | _ => []
  | _ => []

/-- One release of a package in `rows_from_debian_index`: what is no object is passed over. -/
def debianRow (convert : CaseConversion) (cve pkg codename : Text) (rel : TrackerValue) :
    Option (List (Option FixRow)) :=
  match rel with
  | .object _ => do
    let status := convert.lower (← (← rel.get "status").orEmpty)
    let fixed := (← rel.get "fixed_version").orEmpty
    return [do
      return { cve := cve, distro := text "debian",
               release := (debianCodenameToRelease.lookup (convert.lower codename)).getD codename,
               package := pkg, fixedVersion := ← fixed, status := status,
               sourceUrl := text "https://security-tracker.debian.org/tracker/" ++ cve }]
  | _ => some []

/-- `rows_from_debian_index`; no result for data that it fails on. -/
def rowsFromDebianIndex (convert : CaseConversion) (cve : Text) (index : List (Text × Text × TrackerValue)) :
    Option (List (Option FixRow)) := do
  let rows ← (index.filter fun entry => entry.1 = convert.upper cve).mapM fun (_, pkg, cveData) => do
    let releases ← (← cveData.get "releases").items
    return (← releases.mapM fun (codename, rel) => debianRow convert cve pkg codename rel).flatten
  return rows.flatten

/-- `f.replace("\t", " ")`. -/
def blankTabs (t : Text) : Text := t.map fun c => if c = 9 then 32 else c

/-- The fields of a row in the order of the file. -/
def FixRow.fields (row : FixRow) : List Text :=
  [row.cve, row.distro, row.release, row.package, row.fixedVersion, row.status, row.sourceUrl]

/-- `format_row`. -/
def formatRow (row : FixRow) : Text := [9].intercalate (row.fields.map blankTabs)

/-- The UTF-8 encoding of a code point; a surrogate has none, and there are none from `0x110000` on. -/
def utf8Char (c : ℕ) : Option Bytes :=
  if c < 0x80 then some [c.toUInt8]
  else if c < 0x800 then some [(0xC0 + c / 64).toUInt8, (0x80 + c % 64).toUInt8]
  else if 0xD800 ≤ c ∧ c < 0xE000 then none
  else if c < 0x10000 then
    some [(0xE0 + c / 4096).toUInt8, (0x80 + c / 64 % 64).toUInt8, (0x80 + c % 64).toUInt8]
  else if c < 0x110000 then
    some [(0xF0 + c / 262144).toUInt8, (0x80 + c / 4096 % 64).toUInt8, (0x80 + c / 64 % 64).toUInt8,
      (0x80 + c % 64).toUInt8]
  else none

/-- The bytes of a text in a file; no result when the encoding fails. -/
def utf8 : Text → Option Bytes
  | [] => some []
  | c :: t => do return (← utf8Char c) ++ (← utf8 t)

/-- What `time.gmtime` gives. -/
structure GmTime where
  year : ℕ
  month : ℕ
  day : ℕ
  hour : ℕ
  minute : ℕ
  second : ℕ

/-- A number of at least two digits. -/
def twoDigits (n : ℕ) : Text := (if n < 10 then [48] else []) ++ (decimal n).map UInt8.toNat

/-- `time.strftime('%Y-%m-%dT%H:%M:%SZ', …)`. -/
def GmTime.iso (t : GmTime) : Text :=
  (decimal t.year).map UInt8.toNat ++ [45] ++ twoDigits t.month ++ [45] ++ twoDigits t.day ++ [84] ++
    twoDigits t.hour ++ [58] ++ twoDigits t.minute ++ [58] ++ twoDigits t.second ++ [90]

/-- The comment lines at the head of the file. -/
def headerLines (now : GmTime) : List Text :=
  [text "# zt-distro-fixes.txt",
    text "# generated by tools/cve_sync.py — do not edit by hand",
    text "# format: cve_id<TAB>distro<TAB>release<TAB>package<TAB>fixed_version<TAB>status<TAB>source_url",
    text "# generated_at: " ++ now.iso]

/-- `write_output`: the content of the file, unless the encoding fails. -/
def writeOutput (now : GmTime) (rows : List FixRow) : Option Bytes :=
  utf8 ((headerLines now).flatMap (· ++ [10]) ++ rows.flatMap fun row => formatRow row ++ [10])

end ZeroTrust
