import ZeroTrust.Core.Finding

/-!
# Service and distribution from a banner

`detect_service` applies the patterns of a file that is read at start-up, so a pattern is whatever
`std::regex_search` makes of it. The patterns of `detect_distro` are part of the program and are
spelled out here.
-/

namespace ZeroTrust

/-- `ServicePattern`: the groups of the first match behind the match itself, an unmatched group being
empty. -/
structure ServicePattern where
  search : Bytes → Option (List Bytes)
  service : Bytes

/-- The port after a match of a service pattern. -/
def Port.matched (port : Port) (service : Bytes) (groups : List Bytes) : Port :=
  { port with
    service := service
    product := groups[0]?.getD port.product
    version := groups[1]?.getD port.version }

/-- `detect_service`: the first pattern that matches decides. -/
def detectService : List ServicePattern → Bytes → Port → Port
  | [], _, port => { port with service := [] }
  | pattern :: patterns, banner, port =>
    match pattern.search banner with
    | some groups => port.matched pattern.service groups
    | none => detectService patterns banner port

/-- The first position of a text at which a pattern matches. -/
def searchFrom {α : Type} (atStart : Option Byte → Bytes → Option α) : Option Byte → Bytes → Option α
  | previous, [] => atStart previous []
  | previous, c :: cs =>
    match atStart previous (c :: cs) with
    | some a => some a
    | none => searchFrom atStart (some c) cs

/-- `[0-9a-zA-Z.~+_-]`. -/
def isPackageByte (c : Byte) : Bool := isAlnum c || c == 46 || c == 126 || c == 43 || c == 95 || c == 45

/-- `\w`. -/
def isWordByte (c : Byte) : Bool := isAlnum c || c == 95

/-- A vendor mark such as `Ubuntu-` with a non-empty package version, captured together. -/
def matchVendor (mark : Bytes) (_ : Option Byte) (s : Bytes) : Option Bytes :=
  if mark.isPrefixOf s then
    let version := (s.drop mark.length).takeWhile isPackageByte
    if version.isEmpty then none else some (mark ++ version)
  else none

/-- A mark with a non-empty number, which is captured. -/
def matchNumber (mark : Bytes) (_ : Option Byte) (s : Bytes) : Option Bytes :=
  if mark.isPrefixOf s then
    let number := (s.drop mark.length).takeWhile isDigit
    if number.isEmpty then none else some number
  else none

/-- `\bel([0-9]+)_([0-9]+)`: the first number is captured. -/
def matchRhel (previous : Option Byte) (s : Bytes) : Option Bytes :=
  if (previous.map isWordByte).getD false then none
  else match matchNumber (str "el") previous s with
    | none => none
    | some number =>
      match s.drop (2 + number.length) with
      | 95 :: c :: _ => if isDigit c then some number else none
      | _ => none

/-- A mark without a group. -/
def matchMark (mark : Bytes) (_ : Option Byte) (s : Bytes) : Option Bytes :=
  if mark.isPrefixOf s then some [] else none

/-- `distro_patterns`: what each pattern captures, or nothing, and its tag. -/
def distroPatterns : List ((Option Byte → Bytes → Option Bytes) × Bytes) :=
  [(matchVendor (str "Ubuntu-"), str "Ubuntu"), (matchVendor (str "Debian-"), str "Debian"),
   (matchRhel, str "RHEL"), (matchNumber (str ".fc"), str "Fedora"),
   (matchNumber (str ".amzn"), str "AmazonLinux"), (matchMark (str "+alpine"), str "Alpine"),
   (matchMark (str "+suse"), str "SUSE")]

/-- The tag of a distribution with what its pattern captured. -/
def distroTag (tag captured : Bytes) : Bytes :=
  if captured.isEmpty then tag else tag ++ str " (" ++ captured ++ str ")"

/-- `detect_distro` over a list of patterns. -/
def detectDistroWith : List ((Option Byte → Bytes → Option Bytes) × Bytes) → Bytes → Port → Port
  | [], _, port => port
  | (pattern, tag) :: patterns, banner, port =>
    match searchFrom pattern none banner with
    | some captured => { port with distro := distroTag tag captured }
    | none => detectDistroWith patterns banner port

/-- `detect_distro`. -/
def detectDistro (banner : Bytes) (port : Port) : Port := detectDistroWith distroPatterns banner port

example : (detectDistro (str "SSH-2.0-OpenSSH_8.9p1 Ubuntu-3ubuntu0.10") {}).distro =
    str "Ubuntu (Ubuntu-3ubuntu0.10)" := by decide

/-- Detection leaves the number, the protocol and the state of the port. -/
theorem detectService_number (patterns : List ServicePattern) (banner : Bytes) (port : Port) :
    (detectService patterns banner port).number = port.number ∧
      (detectService patterns banner port).protocol = port.protocol := by
  induction patterns with
  | nil => exact ⟨rfl, rfl⟩
  | cons pattern patterns ih =>
    unfold detectService
    cases pattern.search banner with
    | none => exact ih
    | some groups => exact ⟨rfl, rfl⟩

/-- The distribution does not touch the number and the protocol. -/
theorem detectDistroWith_number (patterns : List ((Option Byte → Bytes → Option Bytes) × Bytes))
    (banner : Bytes) (port : Port) :
    (detectDistroWith patterns banner port).number = port.number ∧
      (detectDistroWith patterns banner port).protocol = port.protocol := by
  induction patterns with
  | nil => exact ⟨rfl, rfl⟩
  | cons pattern patterns ih =>
    unfold detectDistroWith
    cases searchFrom pattern.1 none banner with
    | none => exact ih
    | some captured => exact ⟨rfl, rfl⟩

end ZeroTrust
