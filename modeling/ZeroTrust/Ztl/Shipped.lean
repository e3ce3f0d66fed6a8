import ZeroTrust.Ztl.Ast

/-!
# Shipped plugins

The syntax trees of some plugins of `data/plugins`, without positions.
-/

namespace ZeroTrust.Ztl.Shipped

/-- An identifier. -/
def ident (name : String) : Expr := .ident {} (str name)

/-- A string literal. -/
def text (value : String) : Expr := .string {} (str value)

/-- A number literal. -/
def number (digits : String) : Expr := .number {} (str digits)

/-- A boolean literal. -/
def bool (value : Bool) : Expr := .bool {} value

/-- A name such as `net::tcp`. -/
def scopedName (scope name : String) : Expr := .scoped {} (str scope) (str name)

/-- A member access. -/
def member (object : Expr) (name : String) : Expr := .member {} object (str name)

/-- A call. -/
def call (callee : Expr) (args : List CallArg) : Expr := .call {} callee args none

/-- A call with a trailing block. -/
def callBlock (callee : Expr) (args : List CallArg) (block : List Stmt) : Expr :=
  .call {} callee args (some block)

/-- A method call. -/
def method (object : Expr) (name : String) (args : List CallArg) : Expr := call (member object name) args

/-- A unary operation. -/
def unary (op : UnOp) (operand : Expr) : Expr := .unary {} op operand

/-- A binary operation. -/
def binary (op : BinOp) (lhs rhs : Expr) : Expr := .binary {} op lhs rhs

/-- A positional argument. -/
def arg (value : Expr) : CallArg := .mk [] value

/-- A named argument. -/
def named (name : String) (value : Expr) : CallArg := .mk (str name) value

/-- An expression statement. -/
def run (value : Expr) : Stmt := .expr {} value

/-- An assignment. -/
def assign (name : String) (value : Expr) : Stmt := .assign {} (str name) value

/-- A conditional. -/
def ifThen (condition : Expr) (thenBranch elseBranch : List Stmt) : Stmt :=
  .ifThen {} condition thenBranch elseBranch

/-- A bare `return`. -/
def ret : Stmt := .ret {} none

/-- An `include`. -/
def includeModule (name : String) : Stmt := .includeModule {} (str name)

/-- `tcp-ftp-detect.ztl`. -/
def tcpFtpDetect : Program :=
⟨[
  includeModule "@zerotrust/plugin",
  includeModule "@zerotrust/net",
  run (method (ident "plugin") "name" [arg (text "tcp-ftp-detect")]),
  run (method (ident "plugin") "description" [arg
    (text "Strong FTP service discovery using the FTP greeting response.")]),
  run (method (ident "plugin") "category" [arg (text "discovery")]),
  run (method (ident "plugin") "filter" [named "any" (bool true)]),
  run (callBlock (member (ident "plugin") "run") [] [
    assign "conn" (call (scopedName "net" "tcp") [named "host" (member (ident "target") "host"),
      named "port" (member (ident "target") "port"), named "timeout_ms" (number "2000")]),
    ifThen (unary .not (method (ident "conn") "connected" [])) [ret] [],
    assign "banner" (method (ident "conn") "recv_banner" [named "timeout_ms" (number "2000")]),
    assign "banner" (method (ident "banner") "trim" []),
    ifThen (binary .eq (ident "banner") (text "")) [ret] [],
    ifThen (unary .not (method (ident "banner") "starts_with" [arg (text "220")])) [ret] [],
    ifThen (binary .lt (method (ident "banner") "length" []) (number "7")) [ret] [],
    assign "third" (method (ident "banner") "byte_at" [arg (number "3")]),
    ifThen (binary .and (binary .neq (ident "third") (number "32")) (binary .neq (ident "third")
      (number "45"))) [ret] [],
    assign "product" (text ""),
    assign "version" (text ""),
    assign "banner_lower" (method (ident "banner") "to_lower" []),
    ifThen (method (ident "banner_lower") "contains" [arg (text "vsftpd")]) [
      assign "product" (text "vsftpd"),
      assign "marker" (method (ident "banner_lower") "index_of" [arg (text "vsftpd ")]),
      ifThen (binary .gte (ident "marker") (number "0")) [
        assign "version_start" (binary .add (ident "marker") (number "7")),
        assign "version_data" (method (ident "banner") "slice" [arg (ident "version_start"),
          arg (binary .sub (method (ident "banner") "length" []) (ident "version_start"))]),
        assign "space" (method (ident "version_data") "index_of" [arg (text " ")]),
        ifThen (binary .gte (ident "space") (number "0")) [
          assign "version" (method (ident "version_data") "slice" [arg (number "0"),
            arg (ident "space")])] [
          assign "version" (ident "version_data")]] []] [
      ifThen (method (ident "banner_lower") "contains" [arg (text "proftpd")]) [
        assign "product" (text "ProFTPD"),
        assign "marker" (method (ident "banner_lower") "index_of" [arg (text "proftpd ")]),
        ifThen (binary .gte (ident "marker") (number "0")) [
          assign "version_start" (binary .add (ident "marker") (number "7")),
          assign "version_data" (method (ident "banner") "slice" [arg (ident "version_start"),
            arg (binary .sub (method (ident "banner") "length" []) (ident "version_start"))]),
          assign "space" (method (ident "version_data") "index_of" [arg (text " ")]),
          ifThen (binary .gte (ident "space") (number "0")) [
            assign "version" (method (ident "version_data") "slice" [arg (number "0"),
              arg (ident "space")])] [
            assign "version" (ident "version_data")]] []] [
        ifThen (method (ident "banner_lower") "contains" [arg (text "filezilla")]) [
          assign "product" (text "FileZilla Server")] [
          ifThen (method (ident "banner_lower") "contains" [arg (text "pure-ftpd")]) [
            assign "product" (text "Pure-FTPd")] [
            ifThen (method (ident "banner_lower") "contains" [arg (text "microsoft")]) [
              assign "product" (text "Microsoft FTP")] [
              assign "product" (text "FTP")]]]]],
    run (method (ident "plugin") "set_service" [arg (text "ftp"), named "banner" (ident "banner"),
      named "product" (ident "product"), named "version" (ident "version")]),
    run (method (ident "kb") "set_scoped" [arg (text "port"), arg (text "ftp.banner"),
      arg (ident "banner")]),
    run (method (ident "kb") "set_scoped" [arg (text "port"), arg (text "ftp.product"),
      arg (ident "product")]),
    ifThen (binary .neq (ident "version") (text "")) [
      run (method (ident "kb") "set_scoped" [arg (text "port"), arg (text "ftp.version"),
        arg (ident "version")])] [],
    run (call (ident "finding") [named "severity" (text "info"),
      named "title" (text "FTP service detected"),
      named "description"
      (text "The target returned a valid FTP service greeting on the scanned TCP port."),
      named "evidence" (ident "banner"), named "verification" (text "ACTIVE_CHECK"),
      named "confidence" (number "0.98")])])]⟩

/-- `tcp-smtp-detect.ztl`. -/
def tcpSmtpDetect : Program :=
⟨[
  includeModule "@zerotrust/plugin",
  includeModule "@zerotrust/net",
  run (method (ident "plugin") "name" [arg (text "tcp-smtp-detect")]),
  run (method (ident "plugin") "description" [arg
    (text "Strong SMTP service discovery using the SMTP greeting response.")]),
  run (method (ident "plugin") "category" [arg (text "discovery")]),
  run (method (ident "plugin") "filter" [named "any" (bool true)]),
  run (callBlock (member (ident "plugin") "run") [] [
    assign "conn" (call (scopedName "net" "tcp") [named "host" (member (ident "target") "host"),
      named "port" (member (ident "target") "port"), named "timeout_ms" (number "2000")]),
    ifThen (unary .not (method (ident "conn") "connected" [])) [ret] [],
    assign "banner" (method (ident "conn") "recv_banner" [named "timeout_ms" (number "2000")]),
    assign "banner" (method (ident "banner") "trim" []),
    ifThen (binary .eq (ident "banner") (text "")) [ret] [],
    ifThen (unary .not (method (ident "banner") "starts_with" [arg (text "220")])) [ret] [],
    ifThen (binary .lt (method (ident "banner") "length" []) (number "8")) [ret] [],
    assign "separator" (method (ident "banner") "byte_at" [arg (number "3")]),
    ifThen (binary .and (binary .neq (ident "separator") (number "32")) (binary .neq (ident "separator")
      (number "45"))) [ret] [],
    assign "banner_lower" (method (ident "banner") "to_lower" []),
    assign "product" (text ""),
    assign "version" (text ""),
    ifThen (method (ident "banner_lower") "contains" [arg (text "postfix")]) [
      assign "product" (text "Postfix")] [
      ifThen (method (ident "banner_lower") "contains" [arg (text "exim")]) [
        assign "product" (text "Exim")] [
        ifThen (method (ident "banner_lower") "contains" [arg (text "sendmail")]) [
          assign "product" (text "Sendmail")] [
          ifThen (binary .and (method (ident "banner_lower") "contains" [arg (text "microsoft")])
            (method (ident "banner_lower") "contains" [arg (text "exchange")])) [
            assign "product" (text "Microsoft Exchange")] [
            ifThen (method (ident "banner_lower") "contains" [arg (text "smtp")]) [
              assign "product" (text "SMTP")] [ret]]]]],
    run (method (ident "plugin") "set_service" [arg (text "smtp"), named "banner" (ident "banner"),
      named "product" (ident "product"), named "version" (ident "version")]),
    run (method (ident "kb") "set_scoped" [arg (text "port"), arg (text "smtp.banner"),
      arg (ident "banner")]),
    run (method (ident "kb") "set_scoped" [arg (text "port"), arg (text "smtp.product"),
      arg (ident "product")]),
    ifThen (binary .neq (ident "version") (text "")) [
      run (method (ident "kb") "set_scoped" [arg (text "port"), arg (text "smtp.version"),
        arg (ident "version")])] [],
    run (call (ident "finding") [named "severity" (text "info"),
      named "title" (text "SMTP service detected"),
      named "description"
      (text "The target returned a valid SMTP greeting and the response contained an SMTP server identifier."),
      named "evidence" (ident "banner"), named "verification" (text "ACTIVE_CHECK"),
      named "confidence" (number "0.98")])])]⟩

/-- The statements in which a discovery plugin describes itself. -/
def describe (name description : String) : List Stmt := [
  includeModule "@zerotrust/plugin",
  includeModule "@zerotrust/net",
  run (method (ident "plugin") "name" [arg (text name)]),
  run (method (ident "plugin") "description" [arg (text description)]),
  run (method (ident "plugin") "category" [arg (text "discovery")]),
  run (method (ident "plugin") "filter" [named "any" (bool true)])]

/-- A discovery plugin runs its body on every port. -/
def discoveryPlugin (name description : String) (body : List Stmt) : Program :=
  ⟨describe name description ++ [run (callBlock (member (ident "plugin") "run") [] body)]⟩

/-- `tcp-ssh-detect.ztl`. -/
def tcpSshDetect : Program :=
  discoveryPlugin "tcp-ssh-detect" "Strong SSH service discovery using the protocol identification banner." [
    assign "conn" (call (scopedName "net" "tcp") [named "host" (member (ident "target") "host"),
      named "port" (member (ident "target") "port"), named "timeout_ms" (number "2000")]),
    ifThen (unary .not (method (ident "conn") "connected" [])) [ret] [],
    assign "banner" (method (ident "conn") "recv_banner" [named "timeout_ms" (number "2000")]),
    assign "banner" (method (ident "banner") "trim" []),
    ifThen (binary .eq (ident "banner") (text "")) [ret] [],
    ifThen (unary .not (method (ident "banner") "starts_with" [arg (text "SSH-")])) [ret] [],
    ifThen (binary .lt (method (ident "banner") "length" []) (number "9")) [ret] [],
    assign "protocol" (method (ident "banner") "slice" [arg (number "4"), arg (number "3")]),
    ifThen (binary .and (binary .neq (ident "protocol") (text "2.0"))
      (binary .neq (ident "protocol") (text "1.99"))) [ret] [],
    assign "software" (method (ident "banner") "slice" [arg (number "8"),
      arg (binary .sub (method (ident "banner") "length" []) (number "8"))]),
    assign "software" (method (ident "software") "trim" []),
    ifThen (binary .eq (ident "software") (text "")) [ret] [],
    assign "product" (text ""),
    assign "version" (text ""),
    ifThen (method (ident "software") "starts_with" [arg (text "OpenSSH_")]) [
      assign "product" (text "OpenSSH"),
      assign "separator" (method (ident "software") "index_of" [arg (text "_")]),
      ifThen (binary .gte (ident "separator") (number "0")) [
        assign "version_part" (method (ident "software") "slice" [
          arg (binary .add (ident "separator") (number "1")),
          arg (binary .sub (binary .sub (method (ident "software") "length" []) (ident "separator"))
            (number "1"))]),
        assign "separator" (method (ident "version_part") "index_of" [arg (text " ")]),
        ifThen (binary .gte (ident "separator") (number "0")) [
          assign "version" (method (ident "version_part") "slice" [arg (number "0"),
            arg (ident "separator")])] [
          assign "version" (ident "version_part")],
        assign "separator" (method (ident "version") "index_of" [arg (text "p")]),
        ifThen (binary .gt (ident "separator") (number "0")) [
          assign "version" (method (ident "version") "slice" [arg (number "0"),
            arg (ident "separator")])] []] []] [
      ifThen (method (ident "software") "starts_with" [arg (text "dropbear_")]) [
        assign "product" (text "Dropbear"),
        assign "separator" (method (ident "software") "index_of" [arg (text "_")]),
        ifThen (binary .gte (ident "separator") (number "0")) [
          assign "version" (method (ident "software") "slice" [
            arg (binary .add (ident "separator") (number "1")),
            arg (binary .sub (binary .sub (method (ident "software") "length" []) (ident "separator"))
              (number "1"))])] []] [
        ifThen (method (ident "software") "starts_with" [arg (text "libssh")]) [
          assign "product" (text "libssh")] [
          ifThen (method (ident "software") "starts_with" [arg (text "PuTTY")]) [
            assign "product" (text "PuTTY")] [
            assign "product" (text "SSH")]]]],
    run (method (ident "plugin") "set_service" [arg (text "ssh"), named "banner" (ident "banner"),
      named "product" (ident "product"), named "version" (ident "version")]),
    run (method (ident "kb") "set_scoped" [arg (text "port"), arg (text "ssh.protocol"),
      arg (ident "protocol")]),
    run (method (ident "kb") "set_scoped" [arg (text "port"), arg (text "ssh.banner"),
      arg (ident "banner")]),
    run (method (ident "kb") "set_scoped" [arg (text "port"), arg (text "ssh.software"),
      arg (ident "software")]),
    ifThen (binary .neq (ident "product") (text "")) [
      run (method (ident "kb") "set_scoped" [arg (text "port"), arg (text "ssh.product"),
        arg (ident "product")])] [],
    ifThen (binary .neq (ident "version") (text "")) [
      run (method (ident "kb") "set_scoped" [arg (text "port"), arg (text "ssh.version"),
        arg (ident "version")])] [],
    run (call (ident "finding") [named "severity" (text "info"),
      named "title" (text "SSH service detected"),
      named "description" (text "The target is running an SSH service on the scanned TCP port."),
      named "evidence" (ident "banner"), named "verification" (text "ACTIVE_CHECK"),
      named "confidence" (number "0.99")])]

/-- `tcp-mysql-detect.ztl`. -/
def tcpMysqlDetect : Program :=
  discoveryPlugin "tcp-mysql-detect" "Strong MySQL service discovery using the MySQL initial handshake packet." [
    assign "conn" (call (scopedName "net" "tcp") [named "host" (member (ident "target") "host"),
      named "port" (member (ident "target") "port"), named "timeout_ms" (number "2500")]),
    ifThen (unary .not (method (ident "conn") "connected" [])) [ret] [],
    assign "response" (method (ident "conn") "recv_banner" [named "timeout_ms" (number "2000")]),
    ifThen (binary .eq (ident "response") (text "")) [ret] [],
    ifThen (binary .lt (method (ident "response") "length" []) (number "8")) [ret] [],
    assign "protocol_version" (method (ident "response") "byte_at" [arg (number "4")]),
    ifThen (binary .neq (ident "protocol_version") (number "10")) [ret] [],
    assign "version_end" (method (ident "response") "index_of" [arg (.string {} [0])]),
    ifThen (binary .lt (ident "version_end") (number "5")) [ret] [],
    assign "server_version" (method (ident "response") "slice" [arg (number "5"),
      arg (binary .sub (ident "version_end") (number "5"))]),
    assign "server_version" (method (ident "server_version") "trim" []),
    ifThen (binary .eq (ident "server_version") (text "")) [ret] [],
    ifThen (unary .not (method (ident "server_version") "contains" [arg (text ".")])) [ret] [],
    assign "product" (text "MySQL"),
    assign "version" (ident "server_version"),
    assign "version_lower" (method (ident "server_version") "to_lower" []),
    ifThen (method (ident "version_lower") "contains" [arg (text "mariadb")]) [
      assign "product" (text "MariaDB")] [],
    run (method (ident "plugin") "set_service" [arg (text "mysql"), named "banner" (ident "server_version"),
      named "product" (ident "product"), named "version" (ident "version")]),
    run (method (ident "kb") "set_scoped" [arg (text "port"), arg (text "mysql.protocol_version"),
      arg (ident "protocol_version")]),
    run (method (ident "kb") "set_scoped" [arg (text "port"), arg (text "mysql.version"),
      arg (ident "server_version")]),
    run (method (ident "kb") "set_scoped" [arg (text "port"), arg (text "mysql.product"),
      arg (ident "product")]),
    run (call (ident "finding") [named "severity" (text "info"),
      named "title" (text "MySQL service detected"),
      named "description"
      (text "The target returned a valid MySQL initial handshake with protocol version 10."),
      named "evidence" (ident "server_version"), named "verification" (text "ACTIVE_CHECK"),
      named "confidence" (number "0.99")])]

/-- The branch of `tcp-http-detect.ztl` for a product that stands in front of its version. -/
def httpProduct (product : String) (prefixLength : String) : List Stmt := [
  assign "product" (text product),
  assign "version_data" (method (ident "server") "slice" [arg (number prefixLength),
    arg (binary .sub (method (ident "server") "length" []) (number prefixLength))]),
  assign "separator" (method (ident "version_data") "index_of" [arg (text " ")]),
  ifThen (binary .gte (ident "separator") (number "0")) [
    assign "version" (method (ident "version_data") "slice" [arg (number "0"), arg (ident "separator")])] [
    assign "version" (ident "version_data")]]

/-- `tcp-http-detect.ztl`. -/
def tcpHttpDetect : Program :=
  discoveryPlugin "tcp-http-detect"
    "Strong HTTP service discovery using a protocol-valid HEAD request and response validation." [
    assign "conn" (call (scopedName "net" "http") [named "host" (member (ident "target") "host"),
      named "port" (member (ident "target") "port"), named "timeout_ms" (number "2500")]),
    assign "response" (method (ident "conn") "request" [named "method" (text "HEAD"),
      named "path" (text "/")]),
    assign "status" (method (ident "response") "status" []),
    ifThen (binary .or (binary .lt (ident "status") (number "100"))
      (binary .gt (ident "status") (number "599"))) [ret] [],
    assign "server_header" (method (method (ident "response") "headers" []) "header" [arg (text "Server")]),
    assign "server" (text ""),
    ifThen (method (ident "server_header") "exists" []) [
      assign "server" (method (method (ident "server_header") "value" []) "trim" [])] [],
    assign "product" (text ""),
    assign "version" (text ""),
    ifThen (binary .neq (ident "server") (text "")) [
      ifThen (method (ident "server") "starts_with" [arg (text "nginx/")]) (httpProduct "nginx" "6") [
        ifThen (method (ident "server") "starts_with" [arg (text "Apache/")]) (httpProduct "Apache" "7") [
          ifThen (method (ident "server") "starts_with" [arg (text "Microsoft-IIS/")]) [
            assign "product" (text "Microsoft IIS"),
            assign "version" (method (ident "server") "slice" [arg (number "15"),
              arg (binary .sub (method (ident "server") "length" []) (number "15"))])] [
            assign "product" (text "HTTP")]]]] [
      assign "product" (text "HTTP")],
    run (method (ident "plugin") "set_service" [arg (text "http"), named "banner" (ident "server"),
      named "product" (ident "product"), named "version" (ident "version")]),
    run (method (ident "kb") "set_scoped" [arg (text "port"), arg (text "http.status"),
      arg (ident "status")]),
    ifThen (binary .neq (ident "server") (text "")) [
      run (method (ident "kb") "set_scoped" [arg (text "port"), arg (text "http.server"),
        arg (ident "server")])] [],
    ifThen (binary .neq (ident "product") (text "")) [
      run (method (ident "kb") "set_scoped" [arg (text "port"), arg (text "http.product"),
        arg (ident "product")])] [],
    ifThen (binary .neq (ident "version") (text "")) [
      run (method (ident "kb") "set_scoped" [arg (text "port"), arg (text "http.version"),
        arg (ident "version")])] [],
    run (call (ident "finding") [named "severity" (text "info"),
      named "title" (text "HTTP service detected"),
      named "description" (text "A valid HTTP response was received from the scanned TCP port."),
      named "evidence" (ident "server"), named "verification" (text "ACTIVE_CHECK"),
      named "confidence" (number "0.98")])]

/-- The call of `finding` in `tls-cipher-check.ztl`. -/
def cipherFinding (severity title description confidence : String) (remediation : List CallArg) : Stmt :=
  run (call (ident "finding") ([named "severity" (text severity), named "title" (text title),
    named "description" (text description),
    named "evidence" (binary .add (text "Negotiated cipher: ") (ident "cipher")),
    named "verification" (text "ACTIVE_CHECK"), named "confidence" (number confidence)] ++ remediation))

/-- The report of a weak cipher in `tls-cipher-check.ztl`. -/
def weakCipher (condition : Expr) (severity title description remediation : String) : Stmt :=
  ifThen condition
    [cipherFinding severity title description "0.99" [named "remediation" (text remediation)], ret] []

/-- A marker in the lower-case cipher. -/
def cipherContains (marker : String) : Expr := method (ident "cipher_lower") "contains" [arg (text marker)]

/-- The part of `tls-cipher-check.ztl` that inspects the cipher. -/
def inspectCipher : List Stmt := [
  weakCipher (cipherContains "null") "critical" "NULL TLS cipher detected"
    "The negotiated TLS cipher suite does not provide encryption."
    "Disable NULL cipher suites and require an authenticated encrypted cipher.",
  weakCipher (cipherContains "export") "critical" "EXPORT TLS cipher detected"
    "The negotiated TLS cipher suite uses obsolete EXPORT-grade cryptography."
    "Disable EXPORT cipher suites and allow only modern cryptographic suites.",
  weakCipher (cipherContains "rc4") "high" "RC4 TLS cipher detected"
    "The negotiated TLS cipher suite uses the obsolete RC4 stream cipher."
    "Disable RC4 cipher suites and use modern AES-GCM or ChaCha20-Poly1305 suites.",
  weakCipher (binary .or (cipherContains "3des") (cipherContains "des-cbc")) "high"
    "3DES or DES TLS cipher detected" "The negotiated TLS cipher suite uses an obsolete DES-based cipher."
    "Disable 3DES and DES cipher suites and use modern authenticated encryption.",
  weakCipher (cipherContains "md5") "high" "MD5-based TLS cipher detected"
    "The negotiated TLS cipher suite uses the obsolete MD5 hash algorithm."
    "Disable MD5-based cipher suites and use modern TLS cipher suites.",
  weakCipher (cipherContains "rc2") "high" "RC2 TLS cipher detected"
    "The negotiated TLS cipher suite uses the obsolete RC2 algorithm."
    "Disable RC2 cipher suites and use modern authenticated encryption.",
  cipherFinding "info" "TLS cipher inspected" ("The TLS handshake completed and the negotiated cipher suite " ++
    "did not match the checked legacy algorithms.") "0.95" []]

/-- The body of `tls-cipher-check.ztl`. -/
def tlsCipherBody : List Stmt := [
  assign "tls" (call (scopedName "net" "tls") [named "host" (member (ident "target") "host"),
    named "port" (member (ident "target") "port"), named "timeout_ms" (number "3000")]),
  assign "report" (method (ident "tls") "handshake" []),
  ifThen (unary .not (member (ident "report") "ok")) [ret] [],
  ifThen (binary .neq (member (ident "report") "result") (text "OK")) [ret] [],
  ifThen (unary .not (member (ident "report") "certificate_present")) [ret] [],
  assign "cipher" (member (ident "report") "cipher"),
  ifThen (binary .eq (ident "cipher") (text "")) [ret] [],
  run (method (ident "kb") "set_scoped" [arg (text "port"), arg (text "tls.cipher"), arg (ident "cipher")]),
  assign "cipher_lower" (method (ident "cipher") "to_lower" [])] ++ inspectCipher

/-- `tls-cipher-check.ztl`. -/
def tlsCipherCheck : Program :=
⟨[
  includeModule "@zerotrust/plugin",
  includeModule "@zerotrust/net",
  run (method (ident "plugin") "name" [arg (text "tls-cipher-check")]),
  run (method (ident "plugin") "description" [arg
    (text "Checks the negotiated TLS cipher suite for weak or obsolete cryptographic algorithms.")]),
  run (method (ident "plugin") "category" [arg (text "vulnerability")]),
  run (method (ident "plugin") "filter" [named "service" (text "https")]),
  run (callBlock (member (ident "plugin") "run") [] tlsCipherBody)]⟩

end ZeroTrust.Ztl.Shipped
