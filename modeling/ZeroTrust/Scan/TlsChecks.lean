import ZeroTrust.Core.Finding
import ZeroTrust.Core.Transport
import Mathlib.Data.List.ReduceOption

/-!
# TLS checks

`protocols/tls/checks.cpp`. The checks see a server through its handshakes only. A handshake writes to a
plain socket, so it may raise `SIGPIPE`; then the checks have no result. What they write to the knowledge
base of the scan is left out, since nothing reads it.
-/

namespace ZeroTrust

/-- What a TLS server answers to a plain handshake and to one with a list of ciphers, if the handshake comes
back; the clock is read once for every finding. -/
structure TlsServer where
  handshake : Option TlsHandshakeReport
  handshakeWithCiphers : Bytes → Option TlsHandshakeReport
  now : Bytes → ℤ

/-- `port_looks_like_tls`. -/
def portLooksLikeTls (port : Port) : Bool :=
  [443, 465, 636, 989, 990, 993, 995, 5061, 8443].contains port.number

/-- `make_finding`. -/
def makeTlsFinding (port : Port) (now : Bytes → ℤ) (pluginName title : Bytes) (severity : Severity)
    (description : Bytes) : Finding where
  pluginName := pluginName
  title := title
  severity := severity
  confidence := .verified
  confidenceScore := 99 / 100
  verification := str "ACTIVE_CHECK"
  timestamp := now pluginName
  portNumber := port.number
  service := port.service
  product := port.product
  version := port.version
  description := description
  evidence := description
  evidenceData := ⟨str "protocol", str "tls-handshake", description, pluginName⟩

section Checks

variable (port : Port) (now : Bytes → ℤ) (handshake : TlsHandshakeReport)

/-- `check_tls_supported`. -/
def checkTlsSupported : Option Finding :=
  some (makeTlsFinding port now (str "tls-supported")
    (str "TLS/SSL service detected on port " ++ decimal port.number.toNat) .info
    (str "The service on this port accepts TLS connections. Protocol negotiated: " ++
      handshake.protocolVersion ++ str ". Cipher: " ++ handshake.cipherName ++ str "."))

/-- `check_certificate_expired`. -/
def checkCertificateExpired : Option Finding :=
  if handshake.certificatePresent && handshake.certificate.expired then
    some (makeTlsFinding port now (str "tls-cert-expired") (str "SSL Certificate Expired") .high
      (str "The X.509 certificate served by the TLS endpoint is expired. " ++
        str "Subject: " ++ handshake.certificate.subject ++
        str ". Not After: " ++ handshake.certificate.notAfter ++
        str ". Days since expiry: " ++ decimalInt (-handshake.certificate.daysUntilExpiry) ++ str "."))
  else none

/-- `check_certificate_self_signed`. -/
def checkCertificateSelfSigned : Option Finding :=
  if handshake.certificatePresent && handshake.certificate.selfSigned then
    some (makeTlsFinding port now (str "tls-cert-self-signed") (str "SSL Self-Signed Certificate") .medium
      (str "The X.509 certificate served by the TLS endpoint is self-signed, meaning it is " ++
        str "not issued by a trusted certificate authority. Clients will not be able to verify " ++
        str "the identity of the server. Subject: " ++ handshake.certificate.subject ++ str "."))
  else none

/-- The reason why a signature algorithm is weak. -/
def weakSignatureReason (sig : Bytes) : Option Bytes :=
  if contains sig (str "md5") then some (str "MD5-based signature (broken hash)")
  else if contains sig (str "sha1") || contains sig (str "sha-1") then
    some (str "SHA-1 signature (deprecated, collision-vulnerable)")
  else none

/-- `check_weak_signature`. -/
def checkWeakSignature : Option Finding :=
  if handshake.certificatePresent then
    (weakSignatureReason handshake.certificate.signatureAlgorithm).map fun reason =>
      makeTlsFinding port now (str "tls-cert-weak-signature")
        (str "SSL Certificate Signed With Weak Hash Algorithm") .medium
        (str "The X.509 certificate uses a weak signature algorithm: " ++
          handshake.certificate.signatureAlgorithm ++ str " (" ++ reason ++
          str "). Modern trust stores reject or warn on such certificates.")
  else none

/-- The deprecated protocol versions with their severities and reasons. -/
def oldProtocol (v : Bytes) : Option (Severity × Bytes) :=
  if v = str "SSLv3" then
    some (.high, str "SSLv3 is broken (POODLE, CVE-2014-3566) and must be disabled")
  else if v = str "TLSv1" || v = str "TLSv1.0" then
    some (.medium, str "TLS 1.0 is deprecated (BEAST, RFC 8996) and must be disabled")
  else if v = str "TLSv1.1" then
    some (.medium, str "TLS 1.1 is deprecated (RFC 8996) and must be disabled")
  else none

/-- `check_old_protocol`. -/
def checkOldProtocol : Option Finding :=
  (oldProtocol handshake.protocolVersion).map fun (sev, reason) =>
    makeTlsFinding port now (str "tls-old-protocol")
      (str "Deprecated TLS Protocol Version (" ++ handshake.protocolVersion ++ str ")") sev
      (str "The server negotiated a deprecated TLS protocol version (" ++ handshake.protocolVersion ++
        str "). " ++ reason ++ str ".")

end Checks

/-- `cipher_is_anonymous`. -/
def cipherIsAnonymous (name : Bytes) : Bool :=
  (str "ADH-").isPrefixOf name || (str "AECDH-").isPrefixOf name || contains name (str "-ANON-")

/-- `cipher_is_null`. -/
def cipherIsNull (name : Bytes) : Bool :=
  contains name (str "-NULL-") || (str "NULL-").isPrefixOf name ||
    (contains name (str "-NULL") && !contains name (str "-NULL@"))

/-- A check that offers a list of ciphers and reports when one of a kind is accepted. -/
def checkCiphers (port : Port) (server : TlsServer) (ciphers : Bytes) (bad : Bytes → Bool)
    (pluginName title : Bytes) (severity : Severity) (description : Bytes → Bytes) : Option (Option Finding) :=
  (server.handshakeWithCiphers ciphers).map fun handshake =>
    if handshake.result = .ok && bad handshake.cipherName then
      some (makeTlsFinding port server.now pluginName title severity (description handshake.cipherName))
    else none

/-- `check_anonymous_ciphers`. -/
def checkAnonymousCiphers (port : Port) (server : TlsServer) :
    Option (Option Finding) :=
  checkCiphers port server (str "aNULL") cipherIsAnonymous (str "tls-anonymous-ciphers")
    (str "SSL Anonymous Cipher Suites Supported") .high fun cipherName =>
      str "The TLS server accepted an anonymous cipher suite (" ++ cipherName ++
      str "). Anonymous ciphers offer no way to verify the server's identity and expose " ++
      str "connections to man-in-the-middle attacks. Reconfigure the service to disable anonymous " ++
      str "cipher suites (ADH / AECDH)."

/-- `check_null_ciphers`. -/
def checkNullCiphers (port : Port) (server : TlsServer) :
    Option (Option Finding) :=
  checkCiphers port server (str "eNULL") cipherIsNull (str "tls-null-ciphers")
    (str "SSL NULL Cipher Suites Supported") .critical fun cipherName =>
      str "The TLS server accepted a NULL-encryption cipher suite (" ++ cipherName ++
      -- The dash is written in UTF-8.
      str "). NULL ciphers provide integrity but no confidentiality " ++ [0xe2, 0x80, 0x94] ++
      str " all data is sent in " ++
      str "plain text over the wire. Disable NULL cipher suites (eNULL)."

/-- `WeakCipherGroup`. -/
structure WeakCipherGroup where
  opensslExpr : Bytes
  findingId : Bytes
  title : Bytes
  severity : Severity
  reason : Bytes
  cipherNameMarker : Bytes

/-- `weak_cipher_groups`. -/
def weakCipherGroups : List WeakCipherGroup :=
  [{ opensslExpr := str "RC4"
     findingId := str "tls-rc4-supported"
     title := str "SSL RC4 Cipher Suites Supported"
     severity := .high
     reason := str "RC4 has known biases that allow plaintext recovery (RFC 7465, CVE-2013-2566)."
     cipherNameMarker := str "RC4" },
   { opensslExpr := str "3DES"
     findingId := str "tls-3des-supported"
     title := str "SSL 3DES Cipher Suites Supported (Sweet32)"
     severity := .medium
     reason := str "3DES uses a 64-bit block size and is vulnerable to birthday attacks on long sessions " ++
       str "(Sweet32, CVE-2016-2183)."
     cipherNameMarker := str "3DES" },
   { opensslExpr := str "DES:!3DES"
     findingId := str "tls-des-supported"
     title := str "SSL DES Cipher Suites Supported"
     severity := .high
     reason := str "Single-DES uses a 56-bit key that is trivially brute-forced with modern hardware."
     cipherNameMarker := str "-DES-" },
   { opensslExpr := str "EXPORT"
     findingId := str "tls-export-supported"
     title := str "SSL Export-Grade Cipher Suites Supported (FREAK/Logjam)"
     severity := .high
     reason := str "Export-grade ciphers use 40- or 56-bit keys and are broken by design (FREAK " ++
       str "CVE-2015-0204, Logjam CVE-2015-4000)."
     cipherNameMarker := str "EXP" }]

/-- `check_weak_cipher_group`. -/
def checkWeakCipherGroup (port : Port) (server : TlsServer) (group : WeakCipherGroup) :
    Option (Option Finding) :=
  checkCiphers port server group.opensslExpr (contains · group.cipherNameMarker) group.findingId group.title
    group.severity fun cipherName =>
      str "The TLS server accepted a weak cipher suite (" ++ cipherName ++ str "). " ++ group.reason ++
      str " Disable this cipher category on the server."

/-- The findings that the report of the plain handshake gives. -/
def runHandshakeChecks (port : Port) (now : Bytes → ℤ) (handshake : TlsHandshakeReport) : List Finding :=
  [checkTlsSupported port now handshake,
   checkCertificateExpired port now handshake,
   checkCertificateSelfSigned port now handshake,
   checkWeakSignature port now handshake,
   checkOldProtocol port now handshake].reduceOption

/-- The checks that make handshakes of their own. -/
def runCipherChecks (port : Port) (server : TlsServer) : Option (List Finding) :=
  (([checkAnonymousCiphers port server, checkNullCiphers port server] ++
    weakCipherGroups.map (checkWeakCipherGroup port server)).mapM id).map List.reduceOption

/-- `run_tls_checks`. -/
def runTlsChecks (port : Port) (server : TlsServer) : Option (List Finding) :=
  if portLooksLikeTls port then do
    let handshake ← server.handshake
    if handshake.result = .ok then
      return runHandshakeChecks port server.now handshake ++ (← runCipherChecks port server)
    else return []
  else some []

variable {port : Port} {server : TlsServer} {f : Finding}

/-- A check with ciphers makes its finding with `make_finding`. -/
theorem eq_of_checkCiphers {ciphers : Bytes} {bad : Bytes → Bool} {pluginName title : Bytes} {severity : Severity}
    {description : Bytes → Bytes}
    (h : checkCiphers port server ciphers bad pluginName title severity description = some (some f)) :
    ∃ pluginName title severity description,
      f = makeTlsFinding port server.now pluginName title severity description := by
  obtain ⟨handshake, -, hf⟩ := Option.map_eq_some_iff.mp h
  split at hf
  · exact ⟨_, _, _, _, (Option.some.inj hf).symm⟩
  · cases hf

/-- So do the checks on the plain handshake. -/
theorem eq_of_mem_runHandshakeChecks {now : Bytes → ℤ} {handshake : TlsHandshakeReport}
    (h : f ∈ runHandshakeChecks port now handshake) :
    ∃ pluginName title severity description, f = makeTlsFinding port now pluginName title severity description := by
  rw [runHandshakeChecks, List.reduceOption_mem_iff] at h
  simp only [List.mem_cons, List.not_mem_nil, or_false] at h
  rcases h with h | h | h | h | h
  · exact ⟨_, _, _, _, Option.some.inj h⟩
  · unfold checkCertificateExpired at h
    split at h
    · exact ⟨_, _, _, _, Option.some.inj h⟩
    · cases h
  · unfold checkCertificateSelfSigned at h
    split at h
    · exact ⟨_, _, _, _, Option.some.inj h⟩
    · cases h
  · unfold checkWeakSignature at h
    split at h
    · obtain ⟨reason, -, hf⟩ := Option.map_eq_some_iff.mp h.symm
      exact ⟨_, _, _, _, hf.symm⟩
    · cases h
  · obtain ⟨⟨sev, reason⟩, -, hf⟩ := Option.map_eq_some_iff.mp h.symm
    exact ⟨_, _, _, _, hf.symm⟩

/-- What a sequence of checks yields comes from one of them. -/
theorem exists_mem_of_mapM_id {α : Type} {xs : List (Option α)} {as : List α} (h : xs.mapM id = some as) {a : α}
    (ha : a ∈ as) : some a ∈ xs := by
  induction xs generalizing as with
  | nil =>
    cases h
    cases ha
  | cons x xs ih =>
    rw [List.mapM_cons] at h
    obtain ⟨b, hb, h⟩ := Option.bind_eq_some_iff.mp h
    obtain ⟨bs, hbs, h⟩ := Option.bind_eq_some_iff.mp h
    cases h
    rcases List.mem_cons.mp ha with rfl | ha
    · exact List.mem_cons.mpr (.inl hb.symm)
    · exact List.mem_cons_of_mem _ (ih hbs ha)

/-- Every TLS check makes its findings with `make_finding`. -/
theorem mem_runTlsChecks {found : List Finding} (h : runTlsChecks port server = some found) (hf : f ∈ found) :
    ∃ pluginName title severity description,
      f = makeTlsFinding port server.now pluginName title severity description := by
  unfold runTlsChecks at h
  split at h
  · obtain ⟨handshake, -, h⟩ := Option.bind_eq_some_iff.mp h
    split at h
    · obtain ⟨own, hown, h⟩ := Option.bind_eq_some_iff.mp h
      cases h
      rcases List.mem_append.mp hf with hf | hf
      · exact eq_of_mem_runHandshakeChecks hf
      · obtain ⟨checks, hchecks, rfl⟩ := Option.map_eq_some_iff.mp hown
        have hsome := exists_mem_of_mapM_id hchecks (List.reduceOption_mem_iff.mp hf)
        rcases List.mem_append.mp hsome with hmem | hmem
        · simp only [List.mem_cons, List.not_mem_nil, or_false] at hmem
          rcases hmem with hmem | hmem
          · exact eq_of_checkCiphers hmem.symm
          · exact eq_of_checkCiphers hmem.symm
        · obtain ⟨group, -, hgroup⟩ := List.mem_map.mp hmem
          exact eq_of_checkCiphers hgroup
    · cases h
      cases hf
  · cases h
    cases hf

end ZeroTrust
