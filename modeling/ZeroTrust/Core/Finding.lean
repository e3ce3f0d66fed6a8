import ZeroTrust.Core.Bytes
import Mathlib.Algebra.Order.Field.Rat

/-!
# Ports and findings

The shared records of `src/include`. Scores are exact rationals where the source has
`double`. A verification status travels as text, exactly as in the source.
-/

namespace ZeroTrust

/-- `core::Severity`. -/
inductive Severity
  | info | low | medium | high | critical
deriving DecidableEq, Repr

/-- `to_string(Severity)`. -/
def Severity.text : Severity → Bytes
  | .info => str "INFO"
  | .low => str "LOW"
  | .medium => str "MEDIUM"
  | .high => str "HIGH"
  | .critical => str "CRITICAL"

/-- `core::Confidence`. -/
inductive Confidence
  | unknown | versionMatch | verified
deriving DecidableEq, Repr

/-- `core::Protocol`. -/
inductive Protocol
  | unknown | tcp | udp | icmp
deriving DecidableEq, Repr

/-- `to_string(Protocol)`. -/
def Protocol.text : Protocol → Bytes
  | .unknown => str "UNKNOWN"
  | .tcp => str "TCP"
  | .udp => str "UDP"
  | .icmp => str "ICMP"

/-- `core::PortState`. -/
inductive PortState
  | unknown | opened | closed | filtered | openFiltered
deriving DecidableEq, Repr

/-- `core::VerificationStatus`. -/
inductive VerificationStatus
  | unknown | versionMatch | configMatch | activeCheck | notVulnerable
deriving DecidableEq, Repr

/-- `to_string(VerificationStatus)`. -/
def VerificationStatus.text : VerificationStatus → Bytes
  | .unknown => str "UNKNOWN"
  | .versionMatch => str "VERSION_MATCH"
  | .configMatch => str "CONFIG_MATCH"
  | .activeCheck => str "ACTIVE_CHECK"
  | .notVulnerable => str "NOT_VULNERABLE"

/-- Any text that is not the name of another status is `UNKNOWN`. -/
def verificationStatusFromString (value : Bytes) : VerificationStatus :=
  if value = str "VERSION_MATCH" then .versionMatch
  else if value = str "CONFIG_MATCH" then .configMatch
  else if value = str "ACTIVE_CHECK" then .activeCheck
  else if value = str "NOT_VULNERABLE" then .notVulnerable
  else .unknown

/-- The strength of a verification text; unlisted texts have rank 0. -/
def verificationRank (verification : Bytes) : ℕ :=
  if verification = str "ACTIVE_CHECK" then 3
  else if verification = str "CONFIG_MATCH" then 2
  else if verification = str "VERSION_MATCH" then 1
  else 0

/-- `core::Evidence`. -/
structure Evidence where
  type : Bytes := []
  source : Bytes := []
  value : Bytes := []
  details : Bytes := []
deriving DecidableEq, Repr

/-- `core::Finding`. Its numbers are finite: an infinite `double` and one that is no number are left out. -/
structure Finding where
  pluginName : Bytes := []
  title : Bytes := []
  severity : Severity := .info
  confidence : Confidence := .unknown
  verification : Bytes := str "UNKNOWN"
  confidenceScore : ℚ := 0
  host : Bytes := []
  portNumber : UInt16 := 0
  protocol : Protocol := .unknown
  scope : Bytes := str "PORT"
  service : Bytes := []
  product : Bytes := []
  version : Bytes := []
  description : Bytes := []
  evidence : Bytes := []
  evidenceData : Evidence := {}
  references : List Bytes := []
  remediation : Bytes := []
  cvssVector : Bytes := []
  cvss : ℚ := -1
  cveId : Bytes := []
  timestamp : ℤ := 0
deriving DecidableEq, Repr

/-- `core::Port`. -/
structure Port where
  number : UInt16 := 0
  protocol : Protocol := .unknown
  state : PortState := .unknown
  service : Bytes := []
  product : Bytes := []
  version : Bytes := []
  distro : Bytes := []
  tls : Bool := false
deriving DecidableEq, Repr

/-- Every status survives the trip through its text. -/
theorem verificationStatusFromString_text (s : VerificationStatus) :
    verificationStatusFromString s.text = s := by
  cases s <;> decide

end ZeroTrust
