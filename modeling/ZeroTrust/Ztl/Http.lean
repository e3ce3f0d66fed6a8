import ZeroTrust.Ztl.Number

/-!
# HTTP messages

The request that `Http.request` writes and the parser for what comes back. The status line and
the raw text are kept by the source but read by nothing.
-/

namespace ZeroTrust.Ztl

/-- `RawHttpResponse`. -/
structure RawHttpResponse where
  status : ℤ := 0
  headers : List (Bytes × Bytes) := []
  body : Bytes := []
deriving DecidableEq, Repr

/-- Carriage return and line feed. -/
def crlf : Bytes := [13, 10]

/-- Drop one carriage return at the end of a line. -/
def chomp (line : Bytes) : Bytes := if line.getLast? = some 13 then line.dropLast else line

/-- The status code of a status line, zero without a readable one. -/
def statusCode (line : Bytes) : ℤ :=
  match findByte 32 line with
  | none => 0
  | some sp => (stoi ((line.drop (sp + 1)).takeWhile (· != 32))).getD 0

/-- One header line; without a colon it is skipped. -/
def headerOf (line : Bytes) : Option (Bytes × Bytes) :=
  (findByte 58 line).map fun colon => (trim (line.take colon), trim (line.drop (colon + 1)))

/-- `parse_http_response`. -/
def parseHttpResponse (raw : Bytes) : RawHttpResponse :=
  let (head, body) := match findSub (crlf ++ crlf) raw with
    | none => (raw, [])
    | some headerEnd => (raw.take headerEnd, raw.drop (headerEnd + 4))
  match (getlines 10 head).map chomp with
  | [] => { body := body }
  | line :: lines =>
    { status := statusCode line
      headers := (lines.takeWhile (!·.isEmpty)).filterMap headerOf
      body := body }

/-- The request text of `Http.request`. -/
def requestText (method path host body : Bytes) : Bytes :=
  method ++ str " " ++ path ++ str " HTTP/1.1" ++ crlf ++
  str "Host: " ++ host ++ crlf ++
  str "User-Agent: ZeroTrust/1.0" ++ crlf ++
  str "Accept: */*" ++ crlf ++
  str "Connection: close" ++ crlf ++
  (if body.isEmpty then [] else str "Content-Length: " ++ decimal body.length ++ crlf) ++
  crlf ++ body

end ZeroTrust.Ztl
