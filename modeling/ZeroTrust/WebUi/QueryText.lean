import Mathlib.Data.List.Nodup
import Mathlib.Data.List.TakeWhile
import ZeroTrust.Lib.Separated
import ZeroTrust.WebUi.Sessions

/-!
# Query texts

The part of `httplib.h` that reads parameters: a text is cut at ampersands, every piece at its first equals sign,
and both sides are decoded. What `auth_start` and `callback` write with `urlencode` is read back as it was meant,
whatever bytes a verifier, a code or a state has: no value can end its parameter or add another one.
-/

namespace ZeroTrust

/-- `detail::is_hex`. -/
def isHex (c : Byte) : Option ℕ :=
  if isDigit c then some (c.toNat - 48)
  else if 65 ≤ c ∧ c ≤ 70 then some (c.toNat - 55)
  else if 97 ≤ c ∧ c ≤ 102 then some (c.toNat - 87)
  else none

/-- `detail::from_hex_to_i`, for what begins at its position; a string ends with a zero byte. -/
def fromHexToI : ℕ → ℕ → Bytes → Option ℕ
  | 0, val, _ => some val
  | _ + 1, _, [] => none
  | cnt + 1, val, c :: s => (isHex c).bind fun v => fromHexToI cnt (val * 16 + v) s

/-- `detail::to_utf8` of four digits; a surrogate has no encoding. -/
def toUtf8 (code : ℕ) : Bytes := if 0xD800 ≤ code ∧ code < 0xE000 then [] else utf8Encode code

/-- `detail::decode_url`. -/
def decodeUrl (convertPlusToSpace : Bool) : Bytes → Bytes
  | [] => []
  | c :: s =>
    if c = 37 ∧ s ≠ [] then
      if s.head? = some 117 then
        match fromHexToI 4 0 s.tail with
        | some val => toUtf8 val ++ decodeUrl convertPlusToSpace (s.drop 5)
        | none => c :: decodeUrl convertPlusToSpace s
      else match fromHexToI 2 0 s with
        | some val => val.toUInt8 :: decodeUrl convertPlusToSpace (s.drop 2)
        | none => c :: decodeUrl convertPlusToSpace s
    else (if convertPlusToSpace && c == 43 then 32 else c) :: decodeUrl convertPlusToSpace s
termination_by s => s.length
decreasing_by all_goals simp only [List.length_cons, List.length_drop]; omega

/-- `detail::is_space_or_tab`. -/
def isSpaceOrTab (c : Byte) : Bool := c == 32 || c == 9

/-- `detail::trim`. -/
def trimBlanks (s : Bytes) : Bytes := ((s.dropWhile isSpaceOrTab).reverse.dropWhile isSpaceOrTab).reverse

/-- `detail::split` at ampersands: blanks around a piece do not count, nor do empty pieces. -/
def splitQuery (data : Bytes) : List Bytes := ((data.splitOn 38).map trimBlanks).filter (· ≠ [])

/-- A piece of `parse_query_text`: it is divided at its first equals sign. -/
def queryParam (kv : Bytes) : Option (Bytes × Bytes) :=
  let key := kv.takeWhile (· != 61)
  let val := (kv.dropWhile (· != 61)).tail
  if key = [] then none else some (decodeUrl true key, decodeUrl true val)

/-- The pieces of `parse_query_text`, with those that have been seen. -/
def queryParams (cache : List Bytes) : List Bytes → List (Bytes × Bytes)
  | [] => []
  | kv :: rest =>
    if kv ∈ cache then queryParams cache rest else (queryParam kv).toList ++ queryParams (kv :: cache) rest

/-- `detail::parse_query_text`; parameters of one name are kept in their order. -/
def parseQueryText (data : Bytes) : List (Bytes × Bytes) := queryParams [] (splitQuery data)

/-- `req.has_param` and `req.get_param_value`. -/
def paramValue (params : List (Bytes × Bytes)) (key : Bytes) : Option Bytes :=
  (params.find? fun param => param.1 = key).map Prod.snd

/-- The part of `parse_request_line` that reads a target: the path and the parameters, without a fragment. -/
def readTarget (target : Bytes) : Bytes × List (Bytes × Bytes) :=
  let target := target.takeWhile (· != 35)
  (decodeUrl false (target.takeWhile (· != 63)), parseQueryText (target.dropWhile (· != 63)).tail)

/-- What `callback` reads of the parameters of its request. -/
def callbackRequest (params : List (Bytes × Bytes)) : CallbackRequest where
  error := paramValue params (str "error")
  code := paramValue params (str "code")
  state := paramValue params (str "state")

/-- The bytes that `urlencode` leaves as they are. -/
def isUnreserved (c : Byte) : Bool := isAlnum c || c == 45 || c == 95 || c == 46 || c == 126

/-- A text is encoded byte by byte. -/
theorem urlencode_cons (c : Byte) (s : Bytes) : urlencode (c :: s) =
    (if isUnreserved c then [c] else [37, hexDigit (c.toNat / 16), hexDigit (c.toNat % 16)]) ++ urlencode s := rfl

/-- The hexadecimal digit of a number below 16 reads back as that number. -/
theorem isHex_hexDigit {n : ℕ} (h : n < 16) : isHex (hexDigit n) = some n := by
  revert n
  decide

/-- A hexadecimal digit is not a `u` and is left as it is by the encoder. -/
theorem hexDigit_ne {n : ℕ} (h : n < 16) : hexDigit n ≠ 117 ∧ isUnreserved (hexDigit n) = true := by
  revert n
  decide

/-- What `urlencode` writes for a byte is read back. -/
theorem decodeUrl_escape (plus : Bool) (c : Byte) (rest : Bytes) :
    decodeUrl plus (37 :: hexDigit (c.toNat / 16) :: hexDigit (c.toNat % 16) :: rest) = c :: decodeUrl plus rest := by
  have hc : c.toNat < 256 := c.toNat_lt
  have hhigh : c.toNat / 16 < 16 := by omega
  have hlow : c.toNat % 16 < 16 := by omega
  have hhex : fromHexToI 2 0 (hexDigit (c.toNat / 16) :: hexDigit (c.toNat % 16) :: rest) = some c.toNat := by
    simp only [fromHexToI, isHex_hexDigit hhigh, isHex_hexDigit hlow, Option.bind_some, Option.some.injEq]
    omega
  have hu : ¬List.head? (hexDigit (c.toNat / 16) :: hexDigit (c.toNat % 16) :: rest) = some 117 :=
    fun h => (hexDigit_ne hhigh).1 (Option.some.inj h)
  rw [decodeUrl, if_pos ⟨rfl, List.cons_ne_nil _ _⟩, if_neg hu, hhex]
  show c.toNat.toUInt8 :: decodeUrl plus rest = _
  rw [Nat.toUInt8, UInt8.ofNat_toNat]

/-- The decoder copies an unreserved byte. -/
theorem decodeUrl_unreserved (plus : Bool) {c : Byte} (h : isUnreserved c = true) (rest : Bytes) :
    decodeUrl plus (c :: rest) = c :: decodeUrl plus rest := by
  have hpercent : c ≠ 37 := by
    rintro rfl
    cases h
  have hplus : (c == 43) = false := by
    rw [beq_eq_false_iff_ne]
    rintro rfl
    cases h
  rw [decodeUrl, if_neg (fun hand => hpercent hand.1), hplus, Bool.and_false, if_neg Bool.false_ne_true]

/-- Decoding gives back what was encoded, however plus signs are read. -/
theorem decodeUrl_urlencode (plus : Bool) (s : Bytes) : decodeUrl plus (urlencode s) = s := by
  induction s with
  | nil => exact decodeUrl.eq_1 plus
  | cons c s ih =>
    rw [urlencode_cons]
    split
    · next hc => rw [List.singleton_append, decodeUrl_unreserved plus hc, ih]
    · rw [List.cons_append, List.cons_append, List.singleton_append, decodeUrl_escape, ih]

/-- `urlencode` writes unreserved bytes and percent signs. -/
theorem unreserved_of_mem_urlencode {s : Bytes} {c : Byte} (h : c ∈ urlencode s) : isUnreserved c = true ∨ c = 37 := by
  obtain ⟨b, -, hb⟩ := List.mem_flatMap.mp h
  have hbyte : b.toNat < 256 := b.toNat_lt
  split at hb
  · next hplain => exact .inl (List.mem_singleton.mp hb ▸ hplain)
  · simp only [List.mem_cons, List.not_mem_nil, or_false] at hb
    rcases hb with rfl | rfl | rfl
    · exact .inr rfl
    · exact .inl (hexDigit_ne (by omega)).2
    · exact .inl (hexDigit_ne (by omega)).2

/-- The name of a parameter that needs no encoding. -/
def PlainParam (name : Bytes) : Prop := name ≠ [] ∧ ∀ c ∈ name, isUnreserved c = true

instance (name : Bytes) : Decidable (PlainParam name) := inferInstanceAs (Decidable (_ ∧ _))

/-- A parameter as it is written. -/
def fieldText (field : Bytes × Bytes) : Bytes := field.1 ++ 61 :: urlencode field.2

/-- Parameters as they are written. -/
def formText (fields : List (Bytes × Bytes)) : Bytes := [38].intercalate (fields.map fieldText)

section Field

variable {field : Bytes × Bytes} (h : PlainParam field.1)

include h

/-- What a parameter is written with. -/
theorem of_mem_fieldText {c : Byte} (hc : c ∈ fieldText field) : isUnreserved c = true ∨ c = 37 ∨ c = 61 := by
  rw [fieldText, List.mem_append, List.mem_cons] at hc
  rcases hc with hc | rfl | hc
  · exact .inl (h.2 c hc)
  · exact .inr (.inr rfl)
  · exact (unreserved_of_mem_urlencode hc).imp_right .inl

/-- The encoded text of a field has no ampersand. -/
theorem ampersand_not_mem_fieldText : 38 ∉ fieldText field := by
  intro hc
  rcases of_mem_fieldText h hc with hc | hc | hc <;> cases hc

/-- There are no blanks to trim. -/
theorem trimBlanks_fieldText : trimBlanks (fieldText field) = fieldText field := by
  have hblank (c : Byte) (hc : c ∈ fieldText field) : isSpaceOrTab c = false := by
    rw [isSpaceOrTab, Bool.or_eq_false_iff, beq_eq_false_iff_ne, beq_eq_false_iff_ne]
    constructor
    · rintro rfl
      rcases of_mem_fieldText h hc with hc | hc | hc <;> cases hc
    · rintro rfl
      rcases of_mem_fieldText h hc with hc | hc | hc <;> cases hc
  have hdrop (s : Bytes) (hs : ∀ c ∈ s, isSpaceOrTab c = false) : s.dropWhile isSpaceOrTab = s := by
    cases s with
    | nil => rfl
    | cons c s => exact List.dropWhile_cons_of_neg (by simp [hs c List.mem_cons_self])
  rw [trimBlanks, hdrop _ hblank, hdrop _ fun c hc => hblank c (List.mem_reverse.mp hc), List.reverse_reverse]

/-- A parameter is read back. -/
theorem queryParam_fieldText : queryParam (fieldText field) = some field := by
  have hequals : ∀ c ∈ field.1, (c != 61) = true := by
    intro c hc
    rw [bne_iff_ne]
    rintro rfl
    cases h.2 61 hc
  have hkey : (fieldText field).takeWhile (· != 61) = field.1 := by
    rw [fieldText, List.takeWhile_append_of_pos hequals]
    exact List.append_nil _
  have hval : ((fieldText field).dropWhile (· != 61)).tail = urlencode field.2 := by
    rw [fieldText, List.dropWhile_append_of_pos hequals]
    rfl
  have hname : decodeUrl true field.1 = field.1 := by
    have hplain : ∀ s : Bytes, (∀ c ∈ s, isUnreserved c = true) → decodeUrl true s = s := by
      intro s hs
      induction s with
      | nil => exact decodeUrl.eq_1 true
      | cons c s ih =>
        rw [decodeUrl_unreserved true (hs c List.mem_cons_self), ih fun c hc => hs c (List.mem_cons_of_mem _ hc)]
    exact hplain field.1 h.2
  rw [queryParam, hkey, hval, decodeUrl_urlencode, hname]
  exact if_neg h.1

end Field

variable {fields : List (Bytes × Bytes)}

/-- Different pieces are read one by one. -/
theorem queryParams_of_nodup {pieces cache : List Bytes} (hnodup : pieces.Nodup) (hcache : ∀ kv ∈ pieces, kv ∉ cache) :
    queryParams cache pieces = pieces.filterMap queryParam := by
  induction pieces generalizing cache with
  | nil => rfl
  | cons kv pieces ih =>
    rw [List.nodup_cons] at hnodup
    have hrest : ∀ other ∈ pieces, other ∉ kv :: cache := by
      intro other hother hmem
      rcases List.mem_cons.mp hmem with rfl | hmem
      · exact hnodup.1 hother
      · exact hcache other (List.mem_cons_of_mem _ hother) hmem
    rw [queryParams, if_neg (hcache kv List.mem_cons_self), ih hnodup.2 hrest, List.filterMap_cons]
    cases queryParam kv <;> rfl

/-- A form with different plain names is read back. -/
theorem parseQueryText_formText (hplain : ∀ field ∈ fields, PlainParam field.1) (hnodup : fields.Nodup) :
    parseQueryText (formText fields) = fields := by
  have hpieces : splitQuery (formText fields) = fields.map fieldText := by
    by_cases hempty : fields = []
    · subst hempty
      decide
    · have hcut : (formText fields).splitOn 38 = fields.map fieldText := by
        refine List.splitOn_intercalate 38 (fun text htext => ?_) (by simpa using hempty)
        obtain ⟨field, hfield, rfl⟩ := List.mem_map.mp htext
        exact ampersand_not_mem_fieldText (hplain field hfield)
      have htrim : (fields.map fieldText).map trimBlanks = fields.map fieldText := by
        rw [List.map_map]
        exact List.map_congr_left fun field hfield => trimBlanks_fieldText (hplain field hfield)
      rw [splitQuery, hcut, htrim, List.filter_eq_self]
      intro text htext
      obtain ⟨field, hfield, rfl⟩ := List.mem_map.mp htext
      simp [fieldText]
  have hread : ∀ field ∈ fields, queryParam (fieldText field) = some field :=
    fun field hfield => queryParam_fieldText (hplain field hfield)
  have hdistinct : (fields.map fieldText).Nodup := by
    refine (List.nodup_map_iff_inj_on hnodup).mpr fun a ha b hb hab => ?_
    exact Option.some.inj ((hread a ha).symm.trans ((congrArg queryParam hab).trans (hread b hb)))
  rw [parseQueryText, hpieces, queryParams_of_nodup hdistinct fun _ _ => List.not_mem_nil, List.filterMap_map]
  clear hpieces hdistinct hnodup hplain
  induction fields with
  | nil => rfl
  | cons field fields ih =>
    rw [List.filterMap_cons, Function.comp_apply, hread field List.mem_cons_self]
    exact congrArg (field :: ·) (ih fun field hfield => hread field (List.mem_cons_of_mem _ hfield))

/-- A target that is a plain path and a form is read back. -/
theorem readTarget_formText {path : Bytes} (hquery : 63 ∉ path) (hfragment : 35 ∉ path)
    (hplain : ∀ field ∈ fields, PlainParam field.1) (hnodup : fields.Nodup) :
    readTarget (path ++ 63 :: formText fields) = (decodeUrl false path, fields) := by
  have hform : 35 ∉ formText fields := by
    intro hmem
    obtain hmem | ⟨text, htext, hmem⟩ := eq_or_exists_mem_of_mem_intercalate _ hmem
    · cases hmem
    · obtain ⟨field, hfield, rfl⟩ := List.mem_map.mp htext
      rcases of_mem_fieldText (hplain field hfield) hmem with hc | hc | hc <;> cases hc
  have hwhole : (path ++ 63 :: formText fields).takeWhile (· != 35) = path ++ 63 :: formText fields := by
    refine List.takeWhile_eq_self_iff.mpr fun c hc => ?_
    rw [bne_iff_ne]
    rintro rfl
    rcases List.mem_append.mp hc with hc | hc
    · exact hfragment hc
    · rcases List.mem_cons.mp hc with hc | hc
      · cases hc
      · exact hform hc
  have hpath : ∀ c ∈ path, (c != 63) = true := by
    intro c hc
    rw [bne_iff_ne]
    rintro rfl
    exact hquery hc
  have hleft : (path ++ 63 :: formText fields).takeWhile (· != 63) = path := by
    rw [List.takeWhile_append_of_pos hpath]
    exact List.append_nil _
  have hright : ((path ++ 63 :: formText fields).dropWhile (· != 63)).tail = formText fields := by
    rw [List.dropWhile_append_of_pos hpath]
    rfl
  simp only [readTarget, hwhole, hleft, hright, parseQueryText_formText hplain hnodup]

/-- The parameters of the authorization request. -/
def authorizationFields (cfg : Config) (challenge state nonce : Bytes) : List (Bytes × Bytes) :=
  [(str "response_type", str "code"), (str "client_id", cfg.clientId), (str "redirect_uri", cfg.redirectUri),
    (str "scope", cfg.scopes), (str "state", state), (str "nonce", nonce), (str "code_challenge", challenge),
    (str "code_challenge_method", str "S256")]

/-- The parameters of the token request. -/
def tokenFields (cfg : Config) (code verifier : Bytes) : List (Bytes × Bytes) :=
  [(str "grant_type", str "authorization_code"), (str "code", code), (str "redirect_uri", cfg.redirectUri),
    (str "client_id", cfg.clientId), (str "code_verifier", verifier)]

/-- Plain names that differ make a form that can be read back. -/
theorem plain_and_nodup (names : List Bytes) (hfields : fields.map Prod.fst = names)
    (hplain : ∀ name ∈ names, PlainParam name) (hnames : names.Nodup) :
    (∀ field ∈ fields, PlainParam field.1) ∧ fields.Nodup := by
  subst hfields
  exact ⟨fun field hfield => hplain field.1 (List.mem_map_of_mem hfield), hnames.of_map⟩

variable (cfg : Config) (challenge state nonce code verifier : Bytes)

/-- The names in the authorization request are plain and its fields are distinct. -/
theorem authorizationFields_plain : (∀ field ∈ authorizationFields cfg challenge state nonce, PlainParam field.1) ∧
    (authorizationFields cfg challenge state nonce).Nodup :=
  plain_and_nodup [str "response_type", str "client_id", str "redirect_uri", str "scope", str "state", str "nonce",
    str "code_challenge", str "code_challenge_method"] rfl (by decide +kernel) (by decide +kernel)

/-- The names in the token request are plain and its fields are distinct. -/
theorem tokenFields_plain : (∀ field ∈ tokenFields cfg code verifier, PlainParam field.1) ∧
    (tokenFields cfg code verifier).Nodup :=
  plain_and_nodup [str "grant_type", str "code", str "redirect_uri", str "client_id", str "code_verifier"] rfl
    (by decide +kernel) (by decide +kernel)

/-- A text of unreserved bytes is its own encoding. -/
theorem urlencode_of_unreserved {s : Bytes} (h : ∀ c ∈ s, isUnreserved c = true) : urlencode s = s := by
  induction s with
  | nil => rfl
  | cons c s ih =>
    rw [urlencode_cons, if_pos (h c List.mem_cons_self), ih fun c hc => h c (List.mem_cons_of_mem _ hc)]
    rfl

/-- The authorization request is the authorize URL, a question mark and the encoded fields. -/
theorem authorizationRequest_eq : authorizationRequest cfg challenge state nonce =
    cfg.authorizeUrl ++ 63 :: formText (authorizationFields cfg challenge state nonce) := by
  have hcode : urlencode (str "code") = str "code" := urlencode_of_unreserved (by decide +kernel)
  have hmethod : urlencode (str "S256") = str "S256" := urlencode_of_unreserved (by decide +kernel)
  simp [authorizationRequest, formText, authorizationFields, fieldText, List.intercalate, hcode, hmethod]
  rfl

/-- The body of the token request is the encoded fields. -/
theorem tokenRequest_eq : tokenRequest cfg code verifier = formText (tokenFields cfg code verifier) := by
  have hgrant : urlencode (str "authorization_code") = str "authorization_code" :=
    urlencode_of_unreserved (by decide +kernel)
  simp [tokenRequest, formText, tokenFields, fieldText, List.intercalate, hgrant]
  rfl

/-- What `auth_start` and `callback` send is read as the parameters that they mean, whatever bytes these have, and so
is the redirect that brings a code and a state back: no value ends its parameter or adds another one. -/
theorem signIn_requests_read_back (hquery : 63 ∉ cfg.authorizeUrl) (hfragment : 35 ∉ cfg.authorizeUrl) :
    (readTarget (authorizationRequest cfg challenge state nonce)).2 =
        authorizationFields cfg challenge state nonce ∧
      parseQueryText (tokenRequest cfg code verifier) = tokenFields cfg code verifier ∧
      ∀ fields : List (Bytes × Bytes), (∀ field ∈ fields, PlainParam field.1) → fields.Nodup →
        readTarget (str "/callback" ++ 63 :: formText fields) = (str "/callback", fields) := by
  refine ⟨?_, ?_, fun fields hplain hnodup => ?_⟩
  · obtain ⟨hplain, hnodup⟩ := authorizationFields_plain cfg challenge state nonce
    rw [authorizationRequest_eq, readTarget_formText hquery hfragment hplain hnodup]
  · obtain ⟨hplain, hnodup⟩ := tokenFields_plain cfg code verifier
    rw [tokenRequest_eq, parseQueryText_formText hplain hnodup]
  · have hpath : decodeUrl false (str "/callback") = str "/callback" := by decide +kernel
    rw [readTarget_formText (by decide) (by decide) hplain hnodup, hpath]

/-- A code with an ampersand and a state with a percent sign. -/
theorem signIn_requests_read_back_sample :
    (readTarget (authorizationRequest {} (str "c h") (str "s%26&state=x") (str "n#1"))).2 =
        authorizationFields {} (str "c h") (str "s%26&state=x") (str "n#1") ∧
      parseQueryText (tokenRequest {} (str "4/0&client_id=x") (str "v")) =
        tokenFields {} (str "4/0&client_id=x") (str "v") ∧
      readTarget (str "/callback" ++ 63 :: formText [(str "code", str "4/0&error=x"), (str "state", str "s%26")]) =
        (str "/callback", [(str "code", str "4/0&error=x"), (str "state", str "s%26")]) := by
  obtain ⟨hauthorization, htoken, hcallback⟩ := signIn_requests_read_back {} (str "c h") (str "s%26&state=x")
    (str "n#1") (str "4/0&client_id=x") (str "v") (by decide) (by decide)
  exact ⟨hauthorization, htoken, hcallback _ (by decide +kernel) (by decide +kernel)⟩

end ZeroTrust
