import ZeroTrust.WebUi.QueryText
import ZeroTrust.WebUi.StartScan
import Mathlib.Tactic.IntervalCases

/-!
# Signing in succeeds

What `callback` makes of an answer of the token endpoint that carries a token, and how this ends a login that
nobody disturbs: whatever other logins, callbacks and logouts happen in between, the user is signed in.
-/

namespace ZeroTrust

open Function (update)

/-- A digit is read back. -/
theorem base64urlValue_digit {n : ℕ} (h : n < 64) : base64urlValue (base64urlDigit n) = n := by
  revert n
  decide

/-- A base64url digit is not a dot. -/
theorem base64urlDigit_ne_dot {n : ℕ} (h : n < 64) : base64urlDigit n ≠ 46 := by
  revert n
  decide

/-- A number that a byte has converts to that byte. -/
theorem toUInt8_of_eq {n : ℕ} {c : Byte} (h : n = c.toNat) : n.toUInt8 = c := by
  subst h
  exact UInt8.ofNat_toNat

/-- Text is read back in groups of three bytes. -/
theorem b64urlDecode_b64urlEncode (s : Bytes) : b64urlDecode (b64urlEncode s) = s := by
  induction s using b64urlEncode.induct with
  | case1 x y z s ih =>
    have hx := x.toNat_lt
    have hy := y.toNat_lt
    have hz := z.toNat_lt
    rw [b64urlEncode, b64urlDecode]
    simp only [base64urlValue_digit (show (x.toNat * 65536 + y.toNat * 256 + z.toNat) / 262144 < 64 by omega),
      base64urlValue_digit (Nat.mod_lt _ (show 0 < 64 by decide)), ih]
    refine congr_arg₂ _ (toUInt8_of_eq ?_) (congr_arg₂ _ (toUInt8_of_eq ?_) (congr_arg₂ _ (toUInt8_of_eq ?_) rfl))
    all_goals omega
  | case2 x y =>
    have hx := x.toNat_lt
    have hy := y.toNat_lt
    rw [b64urlEncode, b64urlDecode]
    simp only [base64urlValue_digit (show (x.toNat * 256 + y.toNat) / 1024 < 64 by omega),
      base64urlValue_digit (Nat.mod_lt _ (show 0 < 64 by decide))]
    refine congr_arg₂ _ (toUInt8_of_eq ?_) (congr_arg₂ _ (toUInt8_of_eq ?_) rfl)
    all_goals omega
  | case3 x =>
    have hx := x.toNat_lt
    rw [b64urlEncode, b64urlDecode]
    simp only [base64urlValue_digit (show x.toNat / 4 < 64 by omega),
      base64urlValue_digit (Nat.mod_lt _ (show 0 < 64 by decide))]
    refine congr_arg₂ _ (toUInt8_of_eq ?_) rfl
    omega
  | case4 => rfl

/-- An encoded text has no dot. -/
theorem dot_not_mem_b64urlEncode (s : Bytes) : 46 ∉ b64urlEncode s := by
  have hmod (n : ℕ) : base64urlDigit (n % 64) ≠ 46 := base64urlDigit_ne_dot (Nat.mod_lt _ (by decide))
  induction s using b64urlEncode.induct with
  | case1 x y z s ih =>
    have hx := x.toNat_lt
    have hy := y.toNat_lt
    have hz := z.toNat_lt
    have hfirst : base64urlDigit ((x.toNat * 65536 + y.toNat * 256 + z.toNat) / 262144) ≠ 46 :=
      base64urlDigit_ne_dot (by omega)
    rw [b64urlEncode]
    simp only [List.mem_cons, not_or]
    exact ⟨hfirst.symm, (hmod _).symm, (hmod _).symm, (hmod _).symm, ih⟩
  | case2 x y =>
    have hx := x.toNat_lt
    have hy := y.toNat_lt
    have hfirst : base64urlDigit ((x.toNat * 256 + y.toNat) / 1024) ≠ 46 := base64urlDigit_ne_dot (by omega)
    rw [b64urlEncode]
    simp only [List.mem_cons, not_or]
    exact ⟨hfirst.symm, (hmod _).symm, (hmod _).symm, List.not_mem_nil⟩
  | case3 x =>
    have hx := x.toNat_lt
    have hfirst : base64urlDigit (x.toNat / 4) ≠ 46 := base64urlDigit_ne_dot (by omega)
    rw [b64urlEncode]
    simp only [List.mem_cons, not_or]
    exact ⟨hfirst.symm, (hmod _).symm, List.not_mem_nil⟩
  | case4 => exact List.not_mem_nil

/-- A token in its compact form. -/
def compactToken (header payload signature : Bytes) : Bytes :=
  b64urlEncode header ++ 46 :: (b64urlEncode payload ++ 46 :: b64urlEncode signature)

/-- The payload of a compact token is what its middle part decodes to. -/
theorem idTokenPayload_compactToken (header payload signature : Bytes) (decode : Bytes → Bytes) :
    idTokenPayload decode (compactToken header payload signature) = some (decode (b64urlEncode payload)) := by
  have hrest : afterFirst [46] (compactToken header payload signature) =
      some (b64urlEncode payload ++ 46 :: b64urlEncode signature) := by
    rw [compactToken, afterFirst_append_of_not_mem (dot_not_mem_b64urlEncode header)]
    exact afterFirst_self [] _
  have hlength : findByte 46 (b64urlEncode payload ++ 46 :: b64urlEncode signature) =
      some (b64urlEncode payload).length :=
    findByte_append_cons (dot_not_mem_b64urlEncode payload) _
  rw [idTokenPayload, hrest, Option.bind_eq_bind, Option.bind_some, hlength]
  exact congrArg (fun s => some (decode s)) (List.take_left' rfl)

/-- An integer is spelled with digits and, if it is negative, a minus sign. -/
theorem exists_spelledInteger (n : ℤ) :
    ∃ spelled : SpelledInteger,
      spelled.text = decimalInt n ∧ spelled.read = n ∧ (spelled.Fits ↔ n.natAbs < 2 ^ 63) := by
  have hvalue : digitsValue (decimal n.natAbs) = n.natAbs := digitsValue_decimal _
  by_cases hneg : n < 0
  · refine ⟨⟨.minus, decimal n.natAbs, fun _ => isDigit_of_mem_decimal⟩, ?_, ?_, ?_⟩
    · exact (if_pos hneg).symm
    · have hread : -(digitsValue (decimal n.natAbs) : ℤ) = n := by omega
      exact hread
    · simp [SpelledInteger.Fits, hvalue]
  · refine ⟨⟨.absent, decimal n.natAbs, fun _ => isDigit_of_mem_decimal⟩, ?_, ?_, ?_⟩
    · exact (if_neg hneg).symm
    · have hread : (digitsValue (decimal n.natAbs) : ℤ) = n := by omega
      exact hread
    · simp [SpelledInteger.Fits, hvalue]

/-- The integer that an object has under a key, zero if there is none. -/
def JsonObject.ownInteger (obj : JsonObject) (key : Bytes) : ℤ :=
  match obj.own key with
  | some (.integer n) => n
  | _ => 0

/-- `json_number_field` reads an object's own integer, unless it is beyond `long`. -/
theorem jsonNumberField_own {key : Bytes} (hkey : IsFieldName key) {obj : JsonObject}
    (hclear : KeyClear key obj.members) : jsonNumberField obj.text key =
      if (obj.ownInteger key).natAbs < 2 ^ 63 then some (obj.ownInteger key) else none := by
  obtain ⟨hsome, hnone⟩ := afterKey_text hkey hclear
  unfold jsonNumberField JsonObject.ownInteger
  cases hown : obj.own key with
  | none =>
    rw [hnone hown]
    rfl
  | some v =>
    obtain ⟨b, c, rest, hc, hafter⟩ := hsome v hown
    rw [hafter]
    cases v with
    | string cs => rfl
    | integer n =>
      obtain ⟨spelled, htext, hread, hfits⟩ := exists_spelledInteger n
      have hnumber : ∀ {d : Byte} (t : Bytes), isDigit d = false → d ≠ 45 →
          readJsonNumber (decimalInt n ++ d :: t) = if n.natAbs < 2 ^ 63 then some n else none := by
        intro d t hd hminus
        rw [← htext, readJsonNumber_text spelled hd hminus, hread]
        exact if_congr hfits rfl rfl
      -- the number ends at a blank or at the end of its member
      cases hb : b.1 with
      | nil => exact hnumber rest (by rcases hc with rfl | rfl <;> rfl) (by rcases hc with rfl | rfl <;> decide)
      | cons d ds =>
        have hd := b.2 d (hb ▸ List.mem_cons_self)
        refine hnumber (ds ++ c :: rest) ?_ ?_
        · rcases hd with rfl | rfl | rfl | rfl <;> rfl
        · rcases hd with rfl | rfl | rfl | rfl <;> decide

/-- The claims that an object makes. -/
def JsonObject.claims (obj : JsonObject) : IdTokenClaims where
  iss := (obj.ownString (str "iss")).getD []
  sub := (obj.ownString (str "sub")).getD []
  aud := (obj.ownString (str "aud")).getD []
  email := (obj.ownString (str "email")).getD []
  nonce := (obj.ownString (str "nonce")).getD []
  exp := obj.ownInteger (str "exp")

/-- A member that the reader cannot miss or misread. -/
structure JsonObject.PlainAt (obj : JsonObject) (key : Bytes) : Prop where
  clear : KeyClear key obj.members
  readable : ∀ v ∈ obj.own key, v.Readable

/-- The field reader gives the string member of that name, or the empty text when there is none. -/
theorem JsonObject.PlainAt.field {obj : JsonObject} {key : Bytes} (h : obj.PlainAt key) (hkey : IsFieldName key) :
    jsonStringField obj.text key = (obj.ownString key).getD [] :=
  jsonStringField_text hkey h.clear h.readable

/-- `decode_id_token` reads the claims that an object makes. -/
theorem readClaims_text {obj : JsonObject}
    (hplain : ∀ key ∈ [str "iss", str "sub", str "aud", str "email", str "nonce", str "exp"], obj.PlainAt key)
    (hexp : (obj.ownInteger (str "exp")).natAbs < 2 ^ 63) : readClaims obj.text = some obj.claims := by
  have hname : ∀ key ∈ [str "iss", str "sub", str "aud", str "email", str "nonce", str "exp"], IsFieldName key := by
    intro key hkey
    simp only [List.mem_cons, List.not_mem_nil, or_false] at hkey
    rcases hkey with rfl | rfl | rfl | rfl | rfl | rfl <;> exact ⟨by decide +kernel, by decide +kernel⟩
  have hfield : ∀ key ∈ [str "iss", str "sub", str "aud", str "email", str "nonce", str "exp"],
      jsonStringField obj.text key = (obj.ownString key).getD [] :=
    fun key hkey => (hplain key hkey).field (hname key hkey)
  have hnumber := jsonNumberField_own (hname (str "exp") (by simp)) (hplain (str "exp") (by simp)).clear
  rw [if_pos hexp] at hnumber
  rw [readClaims, hnumber, hfield (str "iss") (by simp), hfield (str "sub") (by simp), hfield (str "aud") (by simp),
    hfield (str "email") (by simp), hfield (str "nonce") (by simp)]
  rfl

/-- The token endpoint answers with an object that has an access token and an identity token with some claims. -/
structure CallbackWorld.Answers (w : CallbackWorld) (access : Bytes) (claims : JsonObject) : Prop where
  answer : ∃ answer : JsonObject, w.tokenJson = answer.text ∧ answer.PlainAt (str "access_token") ∧
    answer.PlainAt (str "id_token") ∧ answer.ownString (str "access_token") = some access ∧
    ∃ header signature, answer.ownString (str "id_token") = some (compactToken header claims.text signature)
  access_ne : access ≠ []
  decodes : w.b64urlDecode (b64urlEncode claims.text) = claims.text
  plain : ∀ key ∈ [str "iss", str "sub", str "aud", str "email", str "nonce", str "exp"], claims.PlainAt key
  exp : (claims.ownInteger (str "exp")).natAbs < 2 ^ 63

/-- The text of an object is not empty. -/
theorem JsonObject.text_ne_nil (obj : JsonObject) : obj.text ≠ [] := by
  intro h
  have hbrace : (123 : Byte) ∈ obj.text := List.mem_append_right _ List.mem_cons_self
  rw [h] at hbrace
  cases hbrace

/-- What the second half of a callback makes of an answer with claims. -/
theorem CallbackWorld.Answers.finishCallback_eq {w : CallbackWorld} {access : Bytes} {claims : JsonObject}
    (h : w.Answers access claims) (cfg : Config) (flow : PendingFlow) : finishCallback cfg w flow =
      some ((checkClaims cfg flow w.nowEpoch claims.claims).map fun _ =>
        sessionOf cfg claims.claims (w.userinfo access) w.now) := by
  obtain ⟨answer, hjson, haccessPlain, htokenPlain, haccess, header, signature, htoken⟩ := h.answer
  have haccessField : jsonStringField w.tokenJson (str "access_token") = access := by
    rw [hjson, haccessPlain.field ⟨by decide +kernel, by decide +kernel⟩, haccess]
    rfl
  have htokenField : jsonStringField w.tokenJson (str "id_token") = compactToken header claims.text signature := by
    rw [hjson, htokenPlain.field ⟨by decide +kernel, by decide +kernel⟩, htoken]
    rfl
  have htokenNe : compactToken header claims.text signature ≠ [] :=
    List.append_ne_nil_of_right_ne_nil _ (List.cons_ne_nil _ _)
  have hpayload : (idTokenPayload w.b64urlDecode (compactToken header claims.text signature)).getD [] =
      claims.text := by
    rw [idTokenPayload_compactToken, h.decodes]
    rfl
  have hjsonNe : w.tokenJson ≠ [] := hjson ▸ answer.text_ne_nil
  unfold finishCallback
  dsimp only
  rw [haccessField, htokenField, hpayload, if_neg hjsonNe, if_neg (not_or.mpr ⟨h.access_ne, htokenNe⟩),
    if_neg claims.text_ne_nil, readClaims_text h.plain h.exp]
  rfl

/-- Claims with which `callback` signs in. -/
structure IdTokenClaims.Accepted (claims : IdTokenClaims) (cfg : Config) (nonce : Bytes) (nowEpoch : ℤ) : Prop where
  iss : claims.iss = cfg.issuer
  aud : claims.aud = cfg.clientId
  nonce : claims.nonce = nonce
  exp : 0 < claims.exp → nowEpoch ≤ claims.exp

/-- The claims pass the check just when they are accepted. -/
theorem checkClaims_eq_ok {cfg : Config} {flow : PendingFlow} {nowEpoch : ℤ} {claims : IdTokenClaims} :
    checkClaims cfg flow nowEpoch claims = .ok () ↔ claims.Accepted cfg flow.nonce nowEpoch := by
  unfold checkClaims
  constructor
  · intro h
    split_ifs at h with hiss haud hnonce hexp
    refine ⟨not_not.mp hiss, not_not.mp haud, not_not.mp hnonce, fun hpos => ?_⟩
    by_contra hlate
    exact hexp ⟨hpos, not_le.mp hlate⟩
  · intro h
    rw [if_neg (not_not.mpr h.iss), if_neg (not_not.mpr h.aud), if_neg (not_not.mpr h.nonce),
      if_neg fun hlate => not_lt.mpr (h.exp hlate.1) hlate.2]

universe u v

/-- What survives every event of a part of a history survives that part. -/
theorem Run.stays {σ : Type u} {α : Type v} {step : σ → α → Option σ} {P : List α → σ → Prop} {start s : σ}
    {trace : List α} (run : Run step start trace s) (hstart : P [] start)
    (hstep : ∀ e ∈ trace, ∀ before s s', P before s → step s e = some s' → P (before ++ [e]) s') : P trace s := by
  induction run with
  | nil => exact hstart
  | next run taken ih =>
    have hbefore := ih fun e he => hstep e (List.mem_append_left _ he)
    exact hstep _ (List.mem_append_right _ (List.mem_singleton_self _)) _ _ _ hbefore taken

namespace AuthServer

variable {cfg : Config} {srv srv' : AuthServer} {e : AuthEvent}

/-- A step moves the clock by the duration of its event. -/
theorem step_clock (h : srv.step cfg e = some srv') : srv'.clock = srv.clock + e.duration := by
  cases e with
  | advance d =>
    cases h
    rfl
  | authStart agent verifier state nonce =>
    simp only [step] at h
    split at h
    · cases h
      rfl
    · cases h
  | redeem agent request req answer =>
    obtain ⟨-, -, rfl⟩ := stepRedeem_spec h
    exact (beginCallback_spec req).1
  | finish request w sid answer =>
    obtain ⟨flow, result, -, -, -, rfl⟩ := stepFinish_spec h
    rfl
  | logout sid =>
    cases h
    simp only [logout]
    split <;> rfl
  | getSession sid answer =>
    simp only [step] at h
    split at h
    · cases h
      exact (getSession_spec sid).1
    · cases h
  | tell teller listener state =>
    cases h
    rfl

/-- A flow stays pending until it expires, unless it is redeemed or its state is drawn again. -/
theorem step_pending {state : Bytes} {flow : PendingFlow} (h : srv.step cfg e = some srv')
    (hpending : srv.pending state = some flow) (hdraws : e.draws state = false) (hredeems : e.redeems state = false)
    (hclock : srv'.clock ≤ flow.expires) : srv'.pending state = some flow := by
  have hother : ∀ {state' : Bytes} {flow' : Option PendingFlow}, state' ≠ state →
      update srv.pending state' flow' state = some flow := by
    intro state' flow' hne
    rw [Function.update_of_ne hne.symm, hpending]
  cases e with
  | advance d =>
    cases h
    exact hpending
  | authStart agent verifier state' nonce =>
    simp only [step] at h
    split at h
    · cases h
      exact hother (of_decide_eq_false hdraws)
    · cases h
  | redeem agent request req answer =>
    have hpunctual : ¬srv.clock > flow.expires := by
      rw [step_clock h] at hclock
      exact not_lt.mpr ((Nat.le_add_right _ _).trans hclock)
    obtain ⟨-, hanswer, rfl⟩ := stepRedeem_spec h
    change (srv.beginCallback req).2.pending state = some flow
    unfold beginCallback at hanswer ⊢
    cases herror : req.error with
    | some message => exact hpending
    | none =>
      cases hcode : req.code with
      | none => exact hpending
      | some code =>
        cases hstate : req.state with
        | none => exact hpending
        | some state' =>
          simp only [herror, hcode, hstate] at hanswer ⊢
          unfold redeem at hanswer ⊢
          cases hflow : srv.pending state' with
          | none => exact hpending
          | some flow' =>
            simp only [hflow] at hanswer ⊢
            refine hother ?_
            rintro rfl
            cases hpending.symm.trans hflow
            rw [if_neg hpunctual] at hanswer
            subst hanswer
            exact of_decide_eq_false hredeems hstate
  | finish request w sid answer =>
    obtain ⟨flow', result, -, -, -, rfl⟩ := stepFinish_spec h
    exact hpending
  | logout sid =>
    cases h
    simp only [logout]
    split <;> exact hpending
  | getSession sid answer =>
    simp only [step] at h
    split at h
    · cases h
      rw [(getSession_spec sid).2.1]
      exact hpending
    · cases h
  | tell teller listener state' =>
    cases h
    exact hpending

/-- A callback that has redeemed a flow keeps it until it has ended. -/
theorem step_callbacks {request : ℕ} {flow : PendingFlow} (h : srv.step cfg e = some srv')
    (hstage : srv.callbacks request = .redeemed flow ∨ srv.callbacks request = .ended) :
    srv'.callbacks request = .redeemed flow ∨ srv'.callbacks request = .ended := by
  cases e with
  | advance d =>
    cases h
    exact hstage
  | authStart agent verifier state nonce =>
    simp only [step] at h
    split at h
    · cases h
      exact hstage
    · cases h
  | redeem agent request' req answer =>
    obtain ⟨habsent, -, rfl⟩ := stepRedeem_spec h
    have hne : request ≠ request' := by
      rintro rfl
      rw [habsent] at hstage
      rcases hstage with hstage | hstage <;> cases hstage
    simp only [setCallback, Function.update_of_ne hne, (beginCallback_spec req).2.2.1]
    exact hstage
  | finish request' w sid answer =>
    obtain ⟨flow', result, -, -, -, rfl⟩ := stepFinish_spec h
    by_cases hrequest : request = request'
    · subst hrequest
      exact .inr (Function.update_self _ _ _)
    · simp only [setCallback, Function.update_of_ne hrequest]
      exact hstage
  | logout sid =>
    cases h
    simp only [logout]
    split <;> exact hstage
  | getSession sid answer =>
    simp only [step] at h
    split at h
    · cases h
      rw [(getSession_spec sid).2.2.1]
      exact hstage
    · cases h
  | tell teller listener state =>
    cases h
    exact hstage

/-- A session lasts until it expires, unless it is logged out or its identifier is drawn again. -/
theorem step_sessions {sid : Bytes} {session : Session} (h : srv.step cfg e = some srv')
    (hsession : srv.sessions sid = some session) (hdraws : e.draws sid = false) (hlogout : e ≠ .logout sid)
    (hclock : srv'.clock ≤ session.expires) : srv'.sessions sid = some session := by
  have hother : ∀ {sid' : Bytes} {session' : Option Session}, sid' ≠ sid →
      update srv.sessions sid' session' sid = some session := by
    intro sid' session' hne
    rw [Function.update_of_ne hne.symm, hsession]
  cases e with
  | advance d =>
    cases h
    exact hsession
  | authStart agent verifier state nonce =>
    simp only [step] at h
    split at h
    · cases h
      exact hsession
    · cases h
  | redeem agent request req answer =>
    obtain ⟨-, -, rfl⟩ := stepRedeem_spec h
    exact ((beginCallback_spec req).2.1 ▸ hsession :)
  | finish request w sid' answer =>
    obtain ⟨flow, result, -, -, -, rfl⟩ := stepFinish_spec h
    cases answer with
    | none => exact hsession
    | some session' => exact hother (of_decide_eq_false hdraws)
  | logout sid' =>
    cases h
    simp only [logout]
    split
    · exact hsession
    · exact hother fun heq => hlogout (congrArg AuthEvent.logout heq)
  | getSession sid' answer =>
    have hpunctual : srv.clock ≤ session.expires := by
      rw [step_clock h] at hclock
      exact (Nat.le_add_right _ _).trans hclock
    simp only [step] at h
    split at h
    · cases h
      unfold getSession
      split
      · exact hsession
      cases hfound : srv.sessions sid' with
      | none => exact hsession
      | some session' =>
        dsimp only
        split
        · next hlate =>
          refine hother ?_
          rintro rfl
          cases hsession.symm.trans hfound
          exact absurd hlate (not_lt.mpr hpunctual)
        · exact hsession
    · cases h
  | tell teller listener state =>
    cases h
    exact hsession

end AuthServer

/-- The target to which the authorization server redirects. -/
def callbackTarget (code state : Bytes) : Bytes :=
  str "/callback" ++ 63 :: formText [(str "code", code), (str "state", state)]

/-- The callback reads its code and its state back from the target it is called with. -/
theorem callbackRequest_callbackTarget (code state : Bytes) :
    callbackRequest (readTarget (callbackTarget code state)).2 = { code := some code, state := some state } := by
  obtain ⟨hplain, hnodup⟩ := plain_and_nodup [str "code", str "state"]
    (show [(str "code", code), (str "state", state)].map Prod.fst = _ from rfl) (by decide +kernel) (by decide +kernel)
  rw [callbackTarget, readTarget_formText (by decide) (by decide) hplain hnodup]
  rfl

/-- What an event of a fresh trace mentions is not drawn after it. -/
theorem Fresh.draws_eq_false {trace before after : List AuthEvent} {e : AuthEvent} {s : Bytes} (fresh : Fresh trace)
    (htrace : trace = before ++ e :: after) (hmentions : e.mentions s = true) : ∀ e' ∈ after, e'.draws s = false := by
  intro e' he'
  obtain ⟨earlier, later, rfl⟩ := List.append_of_mem he'
  by_contra hdraws
  have hunmentioned := fresh (before ++ e :: earlier) e' later (by simp [htrace]) s (by simpa using hdraws) e (by simp)
  rw [hmentions] at hunmentioned
  cases hunmentioned

section Undisturbed

variable {cfg : Config} {events : List AuthEvent} {start srv : AuthServer}

/-- A run moves the clock by the time of its events. -/
theorem Run.clock (run : Run (AuthServer.step cfg) start events srv) : srv.clock = start.clock + elapsed events := by
  refine run.stays (P := fun events srv => srv.clock = start.clock + elapsed events) rfl ?_
  intro e _ before s s' hclock htaken
  rw [AuthServer.step_clock htaken, hclock, elapsed_append_singleton, Nat.add_assoc]

/-- A flow is still pending when it is redeemed in time. -/
theorem Run.pending {state : Bytes} {flow : PendingFlow} (run : Run (AuthServer.step cfg) start events srv)
    (hstart : start.pending state = some flow) (hdraws : ∀ e ∈ events, e.draws state = false)
    (hredeems : ∀ e ∈ events, e.redeems state = false) (hclock : srv.clock ≤ flow.expires) :
    srv.pending state = some flow := by
  refine run.stays (P := fun _ srv => srv.clock ≤ flow.expires → srv.pending state = some flow) (fun _ => hstart) ?_
    hclock
  intro e he before s s' hpending htaken hclock
  refine AuthServer.step_pending htaken (hpending ?_) (hdraws e he) (hredeems e he) hclock
  rw [AuthServer.step_clock htaken] at hclock
  exact (Nat.le_add_right _ _).trans hclock

/-- A callback that holds its flow holds it until it ends. -/
theorem Run.callbacks {request : ℕ} {flow : PendingFlow} (run : Run (AuthServer.step cfg) start events srv)
    (hstart : start.callbacks request = .redeemed flow) :
    srv.callbacks request = .redeemed flow ∨ srv.callbacks request = .ended :=
  run.stays (P := fun _ srv => srv.callbacks request = .redeemed flow ∨ srv.callbacks request = .ended)
    (.inl hstart) fun _ _ _ _ _ hstage htaken => AuthServer.step_callbacks htaken hstage

/-- A session is still there when it is used in time. -/
theorem Run.sessions {sid : Bytes} {session : Session} (run : Run (AuthServer.step cfg) start events srv)
    (hstart : start.sessions sid = some session) (hdraws : ∀ e ∈ events, e.draws sid = false)
    (hlogout : .logout sid ∉ events) (hclock : srv.clock ≤ session.expires) : srv.sessions sid = some session := by
  refine run.stays (P := fun _ srv => srv.clock ≤ session.expires → srv.sessions sid = some session) (fun _ => hstart)
    ?_ hclock
  intro e he before s s' hsession htaken hclock
  refine AuthServer.step_sessions htaken (hsession ?_) (hdraws e he) (fun h => hlogout (h ▸ he)) hclock
  rw [AuthServer.step_clock htaken] at hclock
  exact (Nat.le_add_right _ _).trans hclock

/-- A flow that is still pending is redeemed by the callback with its state. -/
theorem AuthServer.step_redeem {agent request : ℕ} {code state : Bytes} {flow : PendingFlow}
    {redeemed : Option PendingFlow} (hpending : start.pending state = some flow) (hclock : start.clock ≤ flow.expires)
    (h : start.step cfg (.redeem agent request { code := some code, state := some state } redeemed) = some srv) :
    redeemed = some flow ∧ srv.callbacks request = .redeemed flow := by
  obtain ⟨-, hanswer, rfl⟩ := stepRedeem_spec h
  have hredeemed : some flow = redeemed := by
    simp only [beginCallback, redeem, hpending, if_neg (not_lt.mpr hclock)] at hanswer
    exact hanswer
  subst hredeemed
  exact ⟨rfl, Function.update_self _ _ _⟩

/-- A callback whose token endpoint answers ends with the session that the claims describe, if they are accepted. -/
theorem AuthServer.step_finish {request : ℕ} {flow : PendingFlow} {w : CallbackWorld} {sid access : Bytes}
    {claims : JsonObject} {created : Option Session} (hanswers : w.Answers access claims)
    (hstage : start.callbacks request = .redeemed flow ∨ start.callbacks request = .ended)
    (h : start.step cfg (.finish request w sid created) = some srv) :
    (created.isSome ↔ claims.claims.Accepted cfg flow.nonce w.nowEpoch) ∧ ∀ session, created = some session →
      session = sessionOf cfg claims.claims (w.userinfo access) start.clock ∧ srv.sessions sid = some session := by
  obtain ⟨flow', result, hflow', hresult, hcreated, rfl⟩ := stepFinish_spec h
  rw [hflow'] at hstage
  obtain rfl : flow' = flow := by
    rcases hstage with hstage | hstage
    · exact CallbackStage.redeemed.inj hstage
    · cases hstage
  have hanswers : CallbackWorld.Answers { w with now := start.clock } access claims :=
    ⟨hanswers.answer, hanswers.access_ne, hanswers.decodes, hanswers.plain, hanswers.exp⟩
  rw [hanswers.finishCallback_eq] at hresult
  cases hresult
  rw [← checkClaims_eq_ok, ← hcreated]
  cases hcheck : checkClaims cfg flow' w.nowEpoch claims.claims with
  | error e => exact ⟨⟨nofun, nofun⟩, nofun⟩
  | ok u =>
    refine ⟨⟨fun _ => rfl, fun _ => rfl⟩, fun session hsession => ?_⟩
    cases hsession
    exact ⟨rfl, Function.update_self _ _ _⟩

/-- A request with a session that has not ended finds it. -/
theorem AuthServer.step_getSession {sid : Bytes} {session : Session} {found : Option Session}
    (hsession : start.sessions sid = some session) (hsid : sid ≠ []) (hclock : start.clock ≤ session.expires)
    (h : start.step cfg (.getSession sid found) = some srv) : found = some session := by
  simp only [step] at h
  split at h
  · next hfound =>
    rw [← hfound, getSession, if_neg hsid, hsession]
    exact congrArg Prod.fst (if_neg (not_lt.mpr hclock))
  · cases h

end Undisturbed

/-- A login that nobody disturbs: the flow is redeemed within ten minutes and by no other callback, the token
endpoint answers with a token, and the session is used before it ends. -/
theorem undisturbed_login {cfg : Config} {trace : List AuthEvent} {srv : AuthServer} (run : AuthRun cfg trace srv)
    (fresh : Fresh trace) {before toCallback toAnswer toUse after : List AuthEvent} {agent opener request : ℕ}
    {verifier state nonce code sid access : Bytes} {redeemed : Option PendingFlow} {w : CallbackWorld}
    {claims : JsonObject} {created found : Option Session}
    (htrace : trace = before ++ .authStart agent verifier state nonce :: (toCallback ++
      .redeem opener request (callbackRequest (readTarget (callbackTarget code state)).2) redeemed :: (toAnswer ++
        .finish request w sid created :: (toUse ++ .getSession sid found :: after))))
    (hunused : ∀ e ∈ toCallback, e.redeems state = false) (hpunctual : elapsed toCallback ≤ seconds 600)
    (hanswers : w.Answers access claims) (hsid : sid ≠ []) (hlogout : .logout sid ∉ toUse)
    (hlasts : elapsed toUse ≤ seconds cfg.sessionTtl) :
    (∃ flow, redeemed = some flow ∧ flow.verifier = verifier ∧ flow.nonce = nonce) ∧
      (created.isSome ↔ claims.claims.Accepted cfg nonce w.nowEpoch) ∧
      ∀ session, created = some session → found = some session ∧ session =
        sessionOf cfg claims.claims (w.userinfo access) (elapsed before + elapsed toCallback + elapsed toAnswer) := by
  have hdrawn : ∀ e ∈ toCallback, e.draws state = false := fun e he =>
    fresh.draws_eq_false htrace (by simp [AuthEvent.mentions]) e (List.mem_append_left _ he)
  have hundrawn : ∀ e ∈ toUse, e.draws sid = false := by
    intro e he
    have hsplit : trace = (before ++ .authStart agent verifier state nonce :: (toCallback ++
        .redeem opener request (callbackRequest (readTarget (callbackTarget code state)).2) redeemed :: toAnswer)) ++
          .finish request w sid created :: (toUse ++ .getSession sid found :: after) := by
      simp [htrace]
    exact fresh.draws_eq_false hsplit (by simp [AuthEvent.mentions]) e (List.mem_append_left _ he)
  subst htrace
  obtain ⟨srv₀, srv₁, hbefore, hstart, run⟩ := run.taken_at
  obtain ⟨srv₂, srv₃, htoCallback, hredeem, run⟩ := run.taken_at
  obtain ⟨srv₄, srv₅, htoAnswer, hfinish, run⟩ := run.taken_at
  obtain ⟨srv₆, srv₇, htoUse, hfound, -⟩ := run.taken_at
  have hclock₀ : srv₀.clock = elapsed before := hbefore.clock.trans (Nat.zero_add _)
  have hclock₁ := AuthServer.step_clock hstart
  have hclock₂ := htoCallback.clock
  have hclock₃ := AuthServer.step_clock hredeem
  have hclock₄ := htoAnswer.clock
  have hclock₅ := AuthServer.step_clock hfinish
  have hclock₆ := htoUse.clock
  simp only [AuthEvent.duration, Nat.add_zero] at hclock₁ hclock₃ hclock₅
  -- the flow is pending until it is redeemed
  obtain ⟨flow, hpending, hverifier, hnonce, hexpires⟩ : ∃ flow, srv₁.pending state = some flow ∧
      flow.verifier = verifier ∧ flow.nonce = nonce ∧ flow.expires = srv₀.clock + seconds 600 := by
    simp only [AuthServer.step] at hstart
    split at hstart
    · cases hstart
      exact ⟨_, Function.update_self _ _ _, rfl, rfl, rfl⟩
    · cases hstart
  have hpunctual : srv₂.clock ≤ flow.expires := by
    rw [hclock₂, hclock₁, hexpires]
    exact Nat.add_le_add_left hpunctual _
  rw [callbackRequest_callbackTarget] at hredeem
  obtain ⟨hredeemed, hstage⟩ :=
    AuthServer.step_redeem (htoCallback.pending hpending hdrawn hunused hpunctual) hpunctual hredeem
  -- the callback keeps it until it ends
  obtain ⟨haccepted, hcreated⟩ := AuthServer.step_finish hanswers (htoAnswer.callbacks hstage) hfinish
  refine ⟨⟨flow, hredeemed, hverifier, hnonce⟩, hnonce ▸ haccepted, fun session hsession => ?_⟩
  obtain ⟨rfl, hstored⟩ := hcreated session hsession
  -- the session lasts until it is used
  have hclock : srv₄.clock = elapsed before + elapsed toCallback + elapsed toAnswer := by
    rw [hclock₄, hclock₃, hclock₂, hclock₁, hclock₀]
  have hlasting : srv₆.clock ≤ srv₄.clock + seconds cfg.sessionTtl := by
    rw [hclock₆, hclock₅]
    exact Nat.add_le_add_left hlasts _
  have hfound := AuthServer.step_getSession (htoUse.sessions hstored hundrawn hlogout hlasting) hsid hlasting hfound
  exact ⟨hfound, congrArg (sessionOf cfg claims.claims (w.userinfo access)) hclock⟩

/-- What the token endpoint answers with a token for the claims about alice. -/
def aliceAnswer : JsonObject :=
  plainObject [stringMember "access_token" (str "a"), stringMember "id_token" (compactToken
    (str "\x7b\"alg\":\"RS256\"\x7d") aliceClaims.text (str "sig"))] (by decide +kernel)

/-- The sample provider answers with the sample claims. -/
theorem answering_answers : (answering aliceClaims).Answers (str "a") aliceClaims where
  answer := ⟨aliceAnswer, by decide +kernel, ⟨by decide +kernel, by decide +kernel⟩,
    ⟨by decide +kernel, by decide +kernel⟩, by decide +kernel,
    str "\x7b\"alg\":\"RS256\"\x7d", str "sig", by decide +kernel⟩
  access_ne := by decide
  decodes := b64urlDecode_b64urlEncode _
  plain := by
    have hclear : ∀ key ∈ [str "iss", str "sub", str "aud", str "email", str "nonce", str "exp"],
        KeyClear key aliceClaims.members := by decide +kernel
    have hreadable : ∀ key ∈ [str "iss", str "sub", str "aud", str "email", str "nonce", str "exp"],
        ∀ v ∈ aliceClaims.own key, v.Readable := by decide +kernel
    exact fun key hkey => ⟨hclear key hkey, hreadable key hkey⟩
  exp := by decide +kernel

/-- The session of alice, who signs in a minute after another user has started to. -/
def laterSession : Session := ⟨str "alice", [], [], [], seconds 3660⟩

/-- Two users sign in at once. -/
def twoLogins : List AuthEvent :=
  [.authStart 1 (str "v1") (str "s1") (str "n1"),
    .authStart 0 (str "v0") (str "s0") (str "n0"),
    .advance (seconds 60),
    .redeem 1 4 { code := some (str "c1"), state := some (str "s1") }
      (some ⟨str "v1", str "n1", seconds 600, by decide⟩),
    .redeem 0 7 { code := some (str "c&0"), state := some (str "s0") } (some aliceFlow),
    .logout (str "other"),
    .finish 7 (answering aliceClaims) (str "sid") (some laterSession),
    .finish 4 (answering aliceClaims) (str "sid1") none,
    .advance (seconds 3600),
    .getSession (str "sid") (some laterSession)]

/-- Two logins side by side draw nothing twice. -/
theorem twoLogins_fresh : Fresh twoLogins := by
  rw [Fresh, forall_splits_iff]
  intro i hi s hs
  have hless : i < 10 := hi
  interval_cases i
  case «0» => exact fun e he => absurd he List.not_mem_nil
  case «1» =>
    obtain rfl : str "s0" = s := of_decide_eq_true hs
    decide
  case «6» =>
    obtain rfl : str "sid" = s := of_decide_eq_true hs
    decide
  all_goals cases hs

/-- One of two logins side by side ends in a session of its own claims, which is found later. -/
theorem undisturbed_login_sample : ∃ srv, AuthRun {} twoLogins srv ∧
    aliceClaims.claims.Accepted {} (str "n0") 1900000000 ∧
      laterSession = sessionOf {} aliceClaims.claims [] (seconds 60) := by
  have hsome : (twoLogins.foldlM (AuthServer.step {}) {}).isSome = true := by decide +kernel
  obtain ⟨srv, hsrv⟩ := Option.isSome_iff_exists.mp hsome
  have run : AuthRun {} twoLogins srv := Run.iff_foldlM.mpr hsrv
  have htrace : twoLogins = twoLogins.take 1 ++ .authStart 0 (str "v0") (str "s0") (str "n0") ::
      ((twoLogins.drop 2).take 2 ++ .redeem 0 7
        (callbackRequest (readTarget (callbackTarget (str "c&0") (str "s0"))).2) (some aliceFlow) ::
          ((twoLogins.drop 5).take 1 ++ .finish 7 (answering aliceClaims) (str "sid") (some laterSession) ::
            ((twoLogins.drop 7).take 2 ++ .getSession (str "sid") (some laterSession) :: []))) := by
    rw [callbackRequest_callbackTarget]
    rfl
  obtain ⟨-, haccepted, hsession⟩ := undisturbed_login run twoLogins_fresh htrace (by decide) (by decide)
    answering_answers (by decide) (by simp [twoLogins]) (by decide)
  exact ⟨srv, run, haccepted.mp rfl, (hsession laterSession rfl).2⟩

end ZeroTrust
