import ZeroTrust.Core.Bytes

/-!
# Transport

What `transport::Tls` reports about a handshake. The fields that no modelled function reads are
left out.
-/

namespace ZeroTrust

/-- `transport::TlsHandshakeResult`. -/
inductive TlsHandshakeResult
  | unknown | ok | refused | timeout | notTls | handshakeFailed
deriving DecidableEq, Repr

/-- `tls_result_name`. -/
def TlsHandshakeResult.text : TlsHandshakeResult → Bytes
  | .ok => str "OK"
  | .refused => str "REFUSED"
  | .timeout => str "TIMEOUT"
  | .notTls => str "NOT_TLS"
  | .handshakeFailed => str "HANDSHAKE_FAILED"
  | .unknown => str "UNKNOWN"

/-- `transport::TlsCertificateInfo`. -/
structure TlsCertificateInfo where
  subject : Bytes := []
  issuer : Bytes := []
  notBefore : Bytes := []
  notAfter : Bytes := []
  signatureAlgorithm : Bytes := []
  selfSigned : Bool := false
  expired : Bool := false
  daysUntilExpiry : ℤ := 0
deriving DecidableEq, Repr

/-- `transport::TlsHandshakeReport`. -/
structure TlsHandshakeReport where
  result : TlsHandshakeResult := .unknown
  protocolVersion : Bytes := []
  cipherName : Bytes := []
  certificate : TlsCertificateInfo := {}
  certificatePresent : Bool := false
deriving DecidableEq, Repr

end ZeroTrust
