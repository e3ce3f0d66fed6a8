import ZeroTrust.WebUi.JsonReader
import ZeroTrust.Core.Transport

/-!
# Signing in

What `auth_start` sends to the authorization server and what `callback` makes of the answer of the
token endpoint. The signature of the token is not checked by the program; its payload is read with the
JSON reader.
-/

namespace ZeroTrust

/-- `webui::Config`, as far as signing in reads it; the program runs with the defaults. -/
structure Config where
  clientId : Bytes := str "23712557077-nnpfbtqte5qypaercy2b79cz4g3bp1fg.apps.agglabs.com"
  redirectUri : Bytes := str "http://localhost:8344/callback"
  scopes : Bytes := str "openid profile email"
  issuer : Bytes := str "https://one.agglabs.com"
  authorizeUrl : Bytes := str "https://one.agglabs.com/consent"
  sessionTtl : ℕ := 3600
  clientId_ne : clientId ≠ [] := by decide
  issuer_ne : issuer ≠ [] := by decide

/-- Time on the steady clock, in nanoseconds. -/
abbrev SteadyTime := ℕ

/-- `std::chrono::seconds`. -/
def seconds (n : ℕ) : SteadyTime := n * 1000000000

/-- `PendingFlow`; a nonce is random text and not empty. -/
structure PendingFlow where
  verifier : Bytes
  nonce : Bytes
  expires : SteadyTime
  nonce_ne : nonce ≠ []
deriving DecidableEq

/-- `Session`. -/
structure Session where
  sub : Bytes
  email : Bytes
  username : Bytes
  picture : Bytes
  expires : SteadyTime
deriving DecidableEq

/-- An answer that is no redirect. -/
structure HttpError where
  status : ℕ
  text : Bytes
deriving DecidableEq

/-- A hexadecimal digit of `std::hex`. -/
def hexDigit (n : ℕ) : Byte := if n < 10 then (48 + n).toUInt8 else (87 + n).toUInt8

/-- `urlencode`. -/
def urlencode (s : Bytes) : Bytes :=
  s.flatMap fun c =>
    if isAlnum c || c == 45 || c == 95 || c == 46 || c == 126 then [c]
    else [37, hexDigit (c.toNat / 16), hexDigit (c.toNat % 16)]

/-- The redirect of `auth_start`, for the challenge made of the verifier. -/
def authorizationRequest (cfg : Config) (challenge state nonce : Bytes) : Bytes :=
  cfg.authorizeUrl ++ str "?response_type=code" ++
    str "&client_id=" ++ urlencode cfg.clientId ++
    str "&redirect_uri=" ++ urlencode cfg.redirectUri ++
    str "&scope=" ++ urlencode cfg.scopes ++
    str "&state=" ++ urlencode state ++
    str "&nonce=" ++ urlencode nonce ++
    str "&code_challenge=" ++ urlencode challenge ++
    str "&code_challenge_method=S256"

/-- The body that `callback` posts to the token endpoint. -/
def tokenRequest (cfg : Config) (code verifier : Bytes) : Bytes :=
  str "grant_type=authorization_code" ++
    str "&code=" ++ urlencode code ++
    str "&redirect_uri=" ++ urlencode cfg.redirectUri ++
    str "&client_id=" ++ urlencode cfg.clientId ++
    str "&code_verifier=" ++ urlencode verifier

/-- `IdTokenClaims`. -/
structure IdTokenClaims where
  iss : Bytes
  sub : Bytes
  aud : Bytes
  email : Bytes
  nonce : Bytes
  exp : ℤ

/-- The text between the first two dots of a token, decoded. -/
def idTokenPayload (b64urlDecode : Bytes → Bytes) (jwt : Bytes) : Option Bytes := do
  let rest ← afterFirst [46] jwt
  let length ← findByte 46 rest
  return b64urlDecode (rest.take length)

/-- `decode_id_token` on a payload; without a value when the expiry is beyond `long`. -/
def readClaims (payload : Bytes) : Option IdTokenClaims := do
  let exp ← jsonNumberField payload (str "exp")
  return {
    iss := jsonStringField payload (str "iss")
    sub := jsonStringField payload (str "sub")
    aud := jsonStringField payload (str "aud")
    email := jsonStringField payload (str "email")
    nonce := jsonStringField payload (str "nonce")
    exp := exp }

/-- The checks of `callback` on the claims. -/
def checkClaims (cfg : Config) (flow : PendingFlow) (nowEpoch : ℤ) (claims : IdTokenClaims) : Except HttpError Unit :=
  if claims.iss ≠ cfg.issuer then .error ⟨401, str "bad iss: " ++ claims.iss⟩
  else if claims.aud ≠ cfg.clientId then .error ⟨401, str "bad aud: " ++ claims.aud⟩
  else if claims.nonce ≠ flow.nonce then .error ⟨401, str "nonce mismatch"⟩
  else if claims.exp > 0 ∧ nowEpoch > claims.exp then .error ⟨401, str "id_token expired"⟩
  else .ok ()

/-- The session that `callback` makes of claims and the answer of the user-info endpoint. -/
def sessionOf (cfg : Config) (claims : IdTokenClaims) (ui : Bytes) (now : SteadyTime) : Session where
  sub := claims.sub
  email := if claims.email = [] then jsonStringField ui (str "email") else claims.email
  username :=
    let preferred := jsonStringField ui (str "preferred_username")
    if preferred = [] then jsonStringField ui (str "username") else preferred
  picture := jsonStringField ui (str "picture")
  expires := now + seconds cfg.sessionTtl

/-- What `callback` asks the world after it has redeemed a flow. -/
structure CallbackWorld where
  b64urlDecode : Bytes → Bytes
  tokenJson : Bytes
  userinfo : Bytes → Bytes
  nowEpoch : ℤ
  now : SteadyTime

/-- The part of `callback` behind the redemption; without a value when its behaviour is undefined. -/
def finishCallback (cfg : Config) (w : CallbackWorld) (flow : PendingFlow) : Option (Except HttpError Session) :=
  let accessToken := jsonStringField w.tokenJson (str "access_token")
  let idToken := jsonStringField w.tokenJson (str "id_token")
  if w.tokenJson = [] then some (.error ⟨502, str "token endpoint unreachable"⟩)
  else if accessToken = [] ∨ idToken = [] then some (.error ⟨400, str "token exchange failed: " ++ w.tokenJson⟩)
  else
    let payload := (idTokenPayload w.b64urlDecode idToken).getD []
    if payload = [] then some (.error ⟨400, str "bad id_token"⟩)
    else (readClaims payload).map fun claims =>
      (checkClaims cfg flow w.nowEpoch claims).map fun _ => sessionOf cfg claims (w.userinfo accessToken) w.now

/-- What a session was made of. -/
theorem finishCallback_eq_ok {cfg : Config} {w : CallbackWorld} {flow : PendingFlow} {session : Session}
    (h : finishCallback cfg w flow = some (.ok session)) :
    ∃ payload claims, idTokenPayload w.b64urlDecode (jsonStringField w.tokenJson (str "id_token")) = some payload ∧
      readClaims payload = some claims ∧
      session = sessionOf cfg claims (w.userinfo (jsonStringField w.tokenJson (str "access_token"))) w.now ∧
      claims.iss = cfg.issuer ∧ claims.aud = cfg.clientId ∧ claims.nonce = flow.nonce ∧
      (0 < claims.exp → w.nowEpoch ≤ claims.exp) := by
  unfold finishCallback at h
  dsimp only at h
  split at h
  · cases h
  split at h
  · cases h
  split at h
  · cases h
  next hpayload =>
    obtain ⟨claims, hclaims, h⟩ := Option.map_eq_some_iff.mp h
    cases hdecoded : idTokenPayload w.b64urlDecode (jsonStringField w.tokenJson (str "id_token")) with
    | none => rw [hdecoded] at hpayload; exact absurd rfl hpayload
    | some payload =>
      rw [hdecoded] at hclaims
      refine ⟨payload, claims, rfl, hclaims, ?_⟩
      unfold checkClaims at h
      split at h
      · cases h
      split at h
      · cases h
      split at h
      · cases h
      split at h
      · cases h
      next hiss haud hnonce hexp =>
        cases h
        refine ⟨rfl, not_not.mp hiss, not_not.mp haud, not_not.mp hnonce, fun hpos => ?_⟩
        by_contra hlate
        exact hexp ⟨hpos, not_le.mp hlate⟩

/-- The string that an object has under a key. -/
def JsonObject.ownString (obj : JsonObject) (key : Bytes) : Option Bytes := (obj.own key).bind JsonValue.asString

/-- An object whose consumed members the reader cannot miss or misread. -/
structure JsonObject.ReadsPlainly (obj : JsonObject) : Prop where
  clear : ∀ key ∈ [str "iss", str "sub", str "aud", str "nonce", str "exp"], KeyClear key obj.members
  readable : ∀ key ∈ [str "iss", str "sub", str "aud", str "nonce"], ∀ v ∈ obj.own key, v.Readable

/-- A field of the claims is the object's own string. -/
theorem JsonObject.ReadsPlainly.field {obj : JsonObject} (h : obj.ReadsPlainly) {key : Bytes}
    (hkey : key ∈ [str "iss", str "sub", str "aud", str "nonce"]) :
    jsonStringField obj.text key = (obj.ownString key).getD [] := by
  have hname : ∀ key ∈ [str "iss", str "sub", str "aud", str "nonce"], IsFieldName key := by
    intro key hkey
    simp only [List.mem_cons, List.not_mem_nil, or_false] at hkey
    rcases hkey with rfl | rfl | rfl | rfl <;> exact ⟨by decide +kernel, by decide +kernel⟩
  have hclear : key ∈ [str "iss", str "sub", str "aud", str "nonce", str "exp"] :=
    List.mem_append_left [str "exp"] hkey
  exact jsonStringField_text (hname key hkey) (h.clear key hclear) (h.readable key hkey)

/-- A session is created only from claims that the object of the token makes. -/
theorem session_from_own_claims {cfg : Config} {w : CallbackWorld} {flow : PendingFlow} {session : Session}
    {obj : JsonObject} (hplain : obj.ReadsPlainly)
    (hpayload : idTokenPayload w.b64urlDecode (jsonStringField w.tokenJson (str "id_token")) = some obj.text)
    (hcreated : finishCallback cfg w flow = some (.ok session)) :
    obj.ownString (str "iss") = some cfg.issuer ∧ obj.ownString (str "aud") = some cfg.clientId ∧
      obj.ownString (str "nonce") = some flow.nonce ∧ session.sub = (obj.ownString (str "sub")).getD [] ∧
      ∀ exp, obj.own (str "exp") = some (.integer exp) → 0 < exp → w.nowEpoch ≤ exp := by
  obtain ⟨payload, claims, hpayload', hclaims, hsession, hiss, haud, hnonce, hexp⟩ := finishCallback_eq_ok hcreated
  rw [hpayload] at hpayload'
  cases hpayload'
  obtain ⟨exp, hread, hclaims⟩ := Option.bind_eq_some_iff.mp hclaims
  cases hclaims
  have hown : ∀ {key value : Bytes}, key ∈ [str "iss", str "sub", str "aud", str "nonce"] → value ≠ [] →
      jsonStringField obj.text key = value → obj.ownString key = some value := by
    intro key value hkey hvalue hfield
    rw [hplain.field hkey] at hfield
    cases hstring : obj.ownString key with
    | none =>
      rw [hstring] at hfield
      exact absurd hfield.symm hvalue
    | some s =>
      rw [hstring] at hfield
      exact congrArg some hfield
  refine ⟨hown (by simp) cfg.issuer_ne hiss, hown (by simp) cfg.clientId_ne haud, hown (by simp) flow.nonce_ne hnonce,
    ?_, ?_⟩
  · rw [hsession]
    exact hplain.field (by simp)
  · intro own hinteger hpos
    have hexpName : IsFieldName (str "exp") := ⟨by decide +kernel, by decide +kernel⟩
    obtain rfl := jsonNumberField_text hexpName (hplain.clear _ (by simp)) hinteger hread
    exact hexp hpos

/-- The digits of base64url. -/
def base64urlDigit (n : ℕ) : Byte :=
  if n < 26 then (65 + n).toUInt8
  else if n < 52 then (71 + n).toUInt8
  else if n < 62 then (n - 4).toUInt8
  else if n = 62 then 45 else 95

/-- The value of a digit of base64url. -/
def base64urlValue (c : Byte) : ℕ :=
  if isDigit c then c.toNat + 4
  else if c = 45 then 62
  else if c = 95 then 63
  else if c ≤ 90 then c.toNat - 65 else c.toNat - 71

/-- `b64url_encode`. -/
def b64urlEncode : Bytes → Bytes
  | x :: y :: z :: s =>
    let n := x.toNat * 65536 + y.toNat * 256 + z.toNat
    base64urlDigit (n / 262144) :: base64urlDigit (n / 4096 % 64) :: base64urlDigit (n / 64 % 64) ::
      base64urlDigit (n % 64) :: b64urlEncode s
  | [x, y] =>
    let n := x.toNat * 256 + y.toNat
    [base64urlDigit (n / 1024), base64urlDigit (n / 16 % 64), base64urlDigit (n * 4 % 64)]
  | [x] => [base64urlDigit (x.toNat / 4), base64urlDigit (x.toNat * 16 % 64)]
  | [] => []

/-- `b64url_decode` of encoded text. -/
def b64urlDecode : Bytes → Bytes
  | a :: b :: c :: d :: s =>
    let n := base64urlValue a * 262144 + base64urlValue b * 4096 + base64urlValue c * 64 + base64urlValue d
    (n / 65536).toUInt8 :: (n / 256 % 256).toUInt8 :: (n % 256).toUInt8 :: b64urlDecode s
  | [a, b, c] =>
    let n := base64urlValue a * 4096 + base64urlValue b * 64 + base64urlValue c
    [(n / 1024).toUInt8, (n / 4 % 256).toUInt8]
  | [a, b] => [(base64urlValue a * 4 + base64urlValue b / 16).toUInt8]
  | _ => []

/-- Plain text as a JSON string. -/
def plainChars (s : Bytes) : List JsonChar :=
  s.filterMap fun c => if h : c ≠ 34 ∧ c ≠ 92 ∧ 32 ≤ c then some (.plain c h.1 h.2.1 h.2.2) else none

/-- A member without blanks. -/
def plainMember (key : String) (value : JsonValue) : JsonMember where
  key := plainChars (str key)
  value := value
  beforeKey := ⟨[], nofun⟩
  beforeColon := ⟨[], nofun⟩
  beforeValue := ⟨[], nofun⟩
  afterValue := ⟨[], nofun⟩

/-- A member that is a string without escapes. -/
def stringMember (key : String) (value : Bytes) : JsonMember := plainMember key (.string (plainChars value))

/-- An object without blanks. -/
def plainObject (members : List JsonMember) (distinct : (members.map fun m => jsonDecode m.key).Nodup) :
    JsonObject where
  members := members
  before := ⟨[], nofun⟩
  inside := ⟨[], nofun⟩
  after := ⟨[], nofun⟩
  distinct := distinct

/-- The claims of the issuer about alice. -/
def aliceClaims : JsonObject :=
  plainObject [stringMember "iss" (str "https://one.agglabs.com"),
    stringMember "aud" (str "23712557077-nnpfbtqte5qypaercy2b79cz4g3bp1fg.apps.agglabs.com"),
    stringMember "nonce" (str "n0"), stringMember "sub" (str "alice"), plainMember "exp" (.integer 2000000000)]
    (by decide +kernel)

/-- A token endpoint that answers with a token for some claims. -/
def answering (obj : JsonObject) : CallbackWorld where
  b64urlDecode := b64urlDecode
  tokenJson := str "\x7b\"access_token\":\"a\",\"id_token\":\"eyJhbGciOiJSUzI1NiJ9." ++ b64urlEncode obj.text ++
    str ".c2ln\"\x7d"
  userinfo _ := []
  nowEpoch := 1900000000
  now := 0

/-- A login in progress. -/
def aliceFlow : PendingFlow := ⟨str "v0", str "n0", seconds 600, by decide⟩

/-- A callback creates a session when it ends without an error. -/
theorem exists_session {cfg : Config} {w : CallbackWorld} {flow : PendingFlow}
    (h : ((finishCallback cfg w flow).bind Except.toOption).isSome = true) :
    ∃ session, finishCallback cfg w flow = some (.ok session) := by
  obtain ⟨session, hsession⟩ := Option.isSome_iff_exists.mp h
  obtain ⟨o, ho, hok⟩ := Option.bind_eq_some_iff.mp hsession
  cases o with
  | error e => cases hok
  | ok session' => exact ⟨session', ho⟩

/-- A token with its own claims. -/
theorem session_from_own_claims_alice :
    ∃ session, finishCallback {} (answering aliceClaims) aliceFlow = some (.ok session) ∧
      aliceClaims.ownString (str "iss") = some (str "https://one.agglabs.com") ∧ session.sub = str "alice" := by
  obtain ⟨session, hcreated⟩ := exists_session
    (show ((finishCallback {} (answering aliceClaims) aliceFlow).bind Except.toOption).isSome = true by decide +kernel)
  have hplain : aliceClaims.ReadsPlainly := ⟨by decide +kernel, by decide +kernel⟩
  have hown := session_from_own_claims hplain (by decide +kernel) hcreated
  refine ⟨session, hcreated, hown.1, hown.2.2.2.1.trans ?_⟩
  decide +kernel

/-- Claims without an expiry. -/
def expirelessClaims : JsonObject :=
  plainObject [stringMember "iss" (str "https://one.agglabs.com"),
    stringMember "aud" (str "23712557077-nnpfbtqte5qypaercy2b79cz4g3bp1fg.apps.agglabs.com"),
    stringMember "nonce" (str "n0"), stringMember "sub" (str "alice")]
    (by decide +kernel)

/-- Claims of another issuer behind a value that looks like the key. -/
def foreignClaims : JsonObject :=
  plainObject [stringMember "x" (str "iss"), stringMember "y" (str "https://one.agglabs.com"),
    stringMember "iss" (str "https://evil.example"),
    stringMember "aud" (str "23712557077-nnpfbtqte5qypaercy2b79cz4g3bp1fg.apps.agglabs.com"),
    stringMember "nonce" (str "n0"), stringMember "sub" (str "alice"), plainMember "exp" (.integer 2000000000)]
    (by decide +kernel)

/-- A token without expiry, and one whose issuer stands in another claim. -/
theorem session_without_own_claims :
    (∃ session, finishCallback {} (answering expirelessClaims) aliceFlow = some (.ok session) ∧
      (expirelessClaims.own (str "exp")).isNone) ∧
    ∃ session, finishCallback {} (answering foreignClaims) aliceFlow = some (.ok session) ∧
      foreignClaims.ownString (str "iss") = some (str "https://evil.example") := by
  obtain ⟨expireless, hexpireless⟩ := exists_session
    (show ((finishCallback {} (answering expirelessClaims) aliceFlow).bind Except.toOption).isSome = true by
      decide +kernel)
  obtain ⟨foreign, hforeign⟩ := exists_session
    (show ((finishCallback {} (answering foreignClaims) aliceFlow).bind Except.toOption).isSome = true by
      decide +kernel)
  exact ⟨⟨expireless, hexpireless, rfl⟩, foreign, hforeign, by decide +kernel⟩

end ZeroTrust
