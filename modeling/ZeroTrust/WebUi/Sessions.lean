import ZeroTrust.Lib.Runs
import ZeroTrust.WebUi.Login

/-!
# Flows and sessions

The login endpoints of the server as a system: `auth_start`, `callback` in its two halves (the
redemption of a flow under the lock, and everything behind the slow token exchange), `logout`,
`get_session` and the steady clock. Events carry what the program answered, so a history tells what
happened. User agents appear in the events only; the program does not ask for them.
-/

namespace ZeroTrust

open Function (update)

/-- The parameters of a callback URL. -/
structure CallbackRequest where
  error : Option Bytes := none
  code : Option Bytes := none
  state : Option Bytes := none

/-- Where the handling of a callback stands. -/
inductive CallbackStage
  | absent
  | redeemed (flow : PendingFlow)
  | ended

/-- The part of `Server` that signing in uses, with the callbacks in progress. -/
structure AuthServer where
  clock : SteadyTime := 0
  pending : Bytes → Option PendingFlow := fun _ => none
  sessions : Bytes → Option Session := fun _ => none
  callbacks : ℕ → CallbackStage := fun _ => .absent

namespace AuthServer

/-- `auth_start`, for the random values that it drew. -/
def authStart (srv : AuthServer) (verifier state nonce : Bytes) (nonce_ne : nonce ≠ []) : AuthServer :=
  { srv with pending := update srv.pending state (some ⟨verifier, nonce, srv.clock + seconds 600, nonce_ne⟩) }

/-- The section of `callback` that holds `flow_mu_`. -/
def redeem (srv : AuthServer) (state : Bytes) : Except HttpError PendingFlow × AuthServer :=
  match srv.pending state with
  | none => (.error ⟨400, str "unknown state"⟩, srv)
  | some flow =>
    (if srv.clock > flow.expires then .error ⟨400, str "state expired"⟩ else .ok flow,
      { srv with pending := update srv.pending state none })

/-- `callback` up to the token exchange. -/
def beginCallback (srv : AuthServer) (req : CallbackRequest) : Except HttpError PendingFlow × AuthServer :=
  match req.error with
  | some e => (.error ⟨400, str "SSO error: " ++ e⟩, srv)
  | none =>
    match req.code, req.state with
    | some _, some state => srv.redeem state
    | _, _ => (.error ⟨400, str "missing code/state"⟩, srv)

/-- `get_session` for the identifier in the cookie. -/
def getSession (srv : AuthServer) (sid : Bytes) : Option Session × AuthServer :=
  if sid = [] then (none, srv)
  else match srv.sessions sid with
    | none => (none, srv)
    | some session =>
      if srv.clock > session.expires then (none, { srv with sessions := update srv.sessions sid none })
      else (some session, srv)

/-- `logout` for the identifier in the cookie. -/
def logout (srv : AuthServer) (sid : Bytes) : AuthServer :=
  if sid = [] then srv else { srv with sessions := update srv.sessions sid none }

end AuthServer

/-- What can happen at the login endpoints, and between user agents. -/
inductive AuthEvent
  | advance (d : ℕ)
  | authStart (agent : ℕ) (verifier state nonce : Bytes)
  | redeem (agent request : ℕ) (req : CallbackRequest) (answer : Option PendingFlow)
  | finish (request : ℕ) (w : CallbackWorld) (sid : Bytes) (answer : Option Session)
  | logout (sid : Bytes)
  | getSession (sid : Bytes) (answer : Option Session)
  | tell (teller listener : ℕ) (state : Bytes)

namespace AuthServer

/-- The request moves on. -/
def setCallback (srv : AuthServer) (request : ℕ) (stage : CallbackStage) : AuthServer :=
  { srv with callbacks := update srv.callbacks request stage }

/-- The first half of a callback. -/
def stepRedeem (srv : AuthServer) (request : ℕ) (req : CallbackRequest) (answer : Option PendingFlow) :
    Option AuthServer :=
  match srv.callbacks request with
  | .absent =>
    if (srv.beginCallback req).1.toOption = answer then
      some ((srv.beginCallback req).2.setCallback request (answer.elim .ended .redeemed))
    else none
  | _ => none

/-- The second half of a callback; a session is stored under the identifier that was drawn for it. -/
def stepFinish (cfg : Config) (srv : AuthServer) (request : ℕ) (w : CallbackWorld) (sid : Bytes)
    (answer : Option Session) : Option AuthServer :=
  match srv.callbacks request with
  | .redeemed flow =>
    match finishCallback cfg { w with now := srv.clock } flow with
    | some result =>
      if result.toOption = answer then
        some { srv.setCallback request .ended with
          sessions := answer.elim srv.sessions fun session => update srv.sessions sid (some session) }
      else none
    | none => none
  | _ => none

/-- An event of the system, if it is possible with the answer that it carries. -/
def step (cfg : Config) (srv : AuthServer) : AuthEvent → Option AuthServer
  | .advance d => some { srv with clock := srv.clock + d }
  | .authStart _ verifier state nonce => if h : nonce ≠ [] then some (srv.authStart verifier state nonce h) else none
  | .redeem _ request req answer => srv.stepRedeem request req answer
  | .finish request w sid answer => srv.stepFinish cfg request w sid answer
  | .logout sid => some (srv.logout sid)
  | .getSession sid answer => if (srv.getSession sid).1 = answer then some (srv.getSession sid).2 else none
  | .tell _ _ _ => some srv

end AuthServer

/-- A history of the login endpoints since the server was started. -/
abbrev AuthRun (cfg : Config) (trace : List AuthEvent) (srv : AuthServer) : Prop :=
  Run (AuthServer.step cfg) ({} : AuthServer) trace srv

namespace AuthEvent

/-- The time that an event takes. -/
def duration : AuthEvent → ℕ
  | .advance d => d
  | _ => 0

/-- The event issues a state. -/
def issues (s : Bytes) : AuthEvent → Bool
  | .authStart _ _ state _ => state = s
  | _ => false

/-- The event redeems a state. -/
def redeems (s : Bytes) : AuthEvent → Bool
  | .redeem _ _ req (some _) => req.state = some s
  | _ => false

/-- The event creates a session for a callback. -/
def creates (r : ℕ) : AuthEvent → Bool
  | .finish request _ _ (some _) => request = r
  | _ => false

/-- The event draws a random state or identifier. -/
def draws (s : Bytes) : AuthEvent → Bool
  | .authStart _ _ state _ => state = s
  | .finish _ _ sid (some _) => sid = s
  | _ => false

/-- A state or identifier occurs in an event. -/
def mentions (s : Bytes) : AuthEvent → Bool
  | .advance _ => false
  | .authStart _ _ state _ => state = s
  | .redeem _ _ req _ => req.state = some s
  | .finish _ _ sid _ => sid = s
  | .logout sid => sid = s
  | .getSession sid _ => sid = s
  | .tell _ _ state => state = s

end AuthEvent

/-- The time that a history takes. -/
def elapsed (trace : List AuthEvent) : SteadyTime := (trace.map AuthEvent.duration).sum

/-- Random values are new: nobody has mentioned them before they are drawn. -/
def Fresh (trace : List AuthEvent) : Prop :=
  ∀ before e after, trace = before ++ e :: after → ∀ s, e.draws s = true → ∀ e' ∈ before, e'.mentions s = false

namespace AuthServer

variable {cfg : Config} {srv srv' : AuthServer} {request : ℕ}

/-- What redeeming does: it uses up the flow of the state it was given and touches nothing else. -/
theorem beginCallback_spec (req : CallbackRequest) :
    (srv.beginCallback req).2.clock = srv.clock ∧ (srv.beginCallback req).2.sessions = srv.sessions ∧
      (srv.beginCallback req).2.callbacks = srv.callbacks ∧
      (∀ flow, (srv.beginCallback req).1.toOption = some flow → ∃ state, req.state = some state ∧
        srv.pending state = some flow ∧ srv.clock ≤ flow.expires ∧
        (srv.beginCallback req).2.pending = update srv.pending state none) ∧
      ∀ state flow, (srv.beginCallback req).2.pending state = some flow → srv.pending state = some flow := by
  unfold beginCallback
  cases req.error with
  | some e => exact ⟨rfl, rfl, rfl, nofun, fun _ _ h => h⟩
  | none =>
    cases req.code with
    | none => exact ⟨rfl, rfl, rfl, nofun, fun _ _ h => h⟩
    | some code =>
      cases req.state with
      | none => exact ⟨rfl, rfl, rfl, nofun, fun _ _ h => h⟩
      | some state =>
        dsimp only
        unfold redeem
        cases hflow : srv.pending state with
        | none => exact ⟨rfl, rfl, rfl, nofun, fun _ _ h => h⟩
        | some flow =>
          refine ⟨rfl, rfl, rfl, fun flow' h => ⟨state, rfl, ?_⟩, fun state' flow' h => ?_⟩
          · dsimp only at h
            split at h
            · cases h
            · next hlate =>
              cases h
              exact ⟨hflow, not_lt.mp hlate, rfl⟩
          · change update srv.pending state none state' = some flow' at h
            rw [Function.update_apply] at h
            split at h
            · cases h
            · exact h

/-- What a redeem step takes and gives: the request was new, and it ended or holds its flow afterwards. -/
theorem stepRedeem_spec {req : CallbackRequest} {answer : Option PendingFlow}
    (h : srv.stepRedeem request req answer = some srv') :
    srv.callbacks request = .absent ∧ (srv.beginCallback req).1.toOption = answer ∧
      srv' = (srv.beginCallback req).2.setCallback request (answer.elim .ended .redeemed) := by
  unfold stepRedeem at h
  split at h
  · next habsent =>
    split at h
    · next hanswer => exact ⟨habsent, hanswer, (Option.some.inj h).symm⟩
    · cases h
  · cases h

/-- What a finish step takes and gives: the request held a flow, and the answer is the one `finish_callback` gives
for it. -/
theorem stepFinish_spec {w : CallbackWorld} {sid : Bytes} {answer : Option Session}
    (h : srv.stepFinish cfg request w sid answer = some srv') :
    ∃ flow result, srv.callbacks request = .redeemed flow ∧
      finishCallback cfg { w with now := srv.clock } flow = some result ∧ result.toOption = answer ∧
      srv' = { srv.setCallback request .ended with
        sessions := answer.elim srv.sessions fun session => update srv.sessions sid (some session) } := by
  unfold stepFinish at h
  split at h
  · next flow hflow =>
    split at h
    · next result hresult =>
      split at h
      · next hanswer => exact ⟨flow, result, hflow, hresult, hanswer, (Option.some.inj h).symm⟩
      · cases h
    · cases h
  · cases h

/-- What a look-up does: it may drop sessions, and it answers with one that is stored and has not expired. -/
theorem getSession_spec (sid : Bytes) :
    (srv.getSession sid).2.clock = srv.clock ∧ (srv.getSession sid).2.pending = srv.pending ∧
      (srv.getSession sid).2.callbacks = srv.callbacks ∧
      (∀ x session, (srv.getSession sid).2.sessions x = some session → srv.sessions x = some session) ∧
      ∀ session, (srv.getSession sid).1 = some session →
        sid ≠ [] ∧ srv.sessions sid = some session ∧ srv.clock ≤ session.expires := by
  unfold getSession
  split
  · exact ⟨rfl, rfl, rfl, fun _ _ h => h, nofun⟩
  next hsid =>
    split
    · exact ⟨rfl, rfl, rfl, fun _ _ h => h, nofun⟩
    next session hsession =>
      split
      · refine ⟨rfl, rfl, rfl, fun x session' h => ?_, nofun⟩
        change update srv.sessions sid none x = some session' at h
        rw [Function.update_apply] at h
        split at h
        · cases h
        · exact h
      next hlate =>
        refine ⟨rfl, rfl, rfl, fun _ _ h => h, fun session' h => ?_⟩
        cases h
        exact ⟨hsid, hsession, not_lt.mp hlate⟩

end AuthServer

/-- A flow was made by a request to `auth_start` that issued its state. -/
def IssuedFlow (trace : List AuthEvent) (state : Bytes) (flow : PendingFlow) : Prop :=
  ∃ before agent after, trace = before ++ .authStart agent flow.verifier state flow.nonce :: after ∧
    flow.expires = elapsed before + seconds 600

/-- What a history without forged values leaves. -/
structure AuthInvariant (cfg : Config) (trace : List AuthEvent) (srv : AuthServer) : Prop where
  clock : srv.clock = elapsed trace
  issued : ∀ state, trace.countP (·.issues state) ≤ 1
  pending : ∀ state flow, srv.pending state = some flow →
    IssuedFlow trace state flow ∧ trace.countP (·.redeems state) = 0
  redeemed : ∀ state, trace.countP (·.redeems state) ≤ 1
  inFlight : ∀ request flow, srv.callbacks request = .redeemed flow →
    ∃ agent req, .redeem agent request req (some flow) ∈ trace
  created : ∀ request, trace.countP (·.creates request) ≤ 1 ∧
    (srv.callbacks request ≠ .ended → trace.countP (·.creates request) = 0)
  sessions : ∀ sid session, srv.sessions sid = some session →
    (∃ request w, .finish request w sid (some session) ∈ trace) ∧ (sid ≠ [] → .logout sid ∉ trace)

/-- An event moves the clock by its own duration. -/
theorem elapsed_append_singleton (trace : List AuthEvent) (e : AuthEvent) :
    elapsed (trace ++ [e]) = elapsed trace + e.duration := by
  simp [elapsed]

/-- A flow that was issued stays issued. -/
theorem IssuedFlow.append {trace : List AuthEvent} {state : Bytes} {flow : PendingFlow}
    (h : IssuedFlow trace state flow) (e : AuthEvent) : IssuedFlow (trace ++ [e]) state flow := by
  obtain ⟨before, agent, after, rfl, hexpires⟩ := h
  exact ⟨before, agent, after ++ [e], by simp, hexpires⟩

/-- One more event adds one to the count where it satisfies the predicate. -/
theorem countP_append_singleton (p : AuthEvent → Bool) (trace : List AuthEvent) (e : AuthEvent) :
    (trace ++ [e]).countP p = trace.countP p + if p e = true then 1 else 0 := by
  rw [List.countP_append, List.countP_singleton]

/-- What only events that mention a value do has not happened to a value that was never mentioned. -/
theorem countP_eq_zero_of_mentions {p : AuthEvent → Bool} {s : Bytes} (hp : ∀ e, p e = true → e.mentions s = true)
    {trace : List AuthEvent} (h : ∀ e ∈ trace, e.mentions s = false) : trace.countP p = 0 := by
  rw [List.countP_eq_zero]
  intro e he hpe
  exact Bool.false_ne_true ((h e he).symm.trans (hp e hpe))

namespace AuthInvariant

variable {cfg : Config} {trace : List AuthEvent} {srv srv' : AuthServer}

/-- An event that issues, redeems and creates nothing keeps the invariant when it takes away at most. -/
theorem quiet (inv : AuthInvariant cfg trace srv) {e : AuthEvent} (hclock : srv'.clock = srv.clock + e.duration)
    (hissues : ∀ s, e.issues s = false) (hredeems : ∀ s, e.redeems s = false) (hcreates : ∀ r, e.creates r = false)
    (hpending : ∀ state flow, srv'.pending state = some flow → srv.pending state = some flow)
    (hcallbacks : srv'.callbacks = srv.callbacks)
    (hsessions : ∀ sid session, srv'.sessions sid = some session →
      srv.sessions sid = some session ∧ (sid ≠ [] → e ≠ .logout sid)) :
    AuthInvariant cfg (trace ++ [e]) srv' where
  clock := by rw [hclock, inv.clock, elapsed_append_singleton]
  issued state := by
    rw [countP_append_singleton, hissues]
    exact inv.issued state
  pending state flow h := by
    obtain ⟨hissued, hunredeemed⟩ := inv.pending state flow (hpending state flow h)
    refine ⟨hissued.append e, ?_⟩
    rw [countP_append_singleton, hredeems]
    exact hunredeemed
  redeemed state := by
    rw [countP_append_singleton, hredeems]
    exact inv.redeemed state
  inFlight request flow h := by
    rw [hcallbacks] at h
    obtain ⟨agent, req, hmem⟩ := inv.inFlight request flow h
    exact ⟨agent, req, List.mem_append_left _ hmem⟩
  created request := by
    rw [countP_append_singleton, hcreates, hcallbacks]
    exact inv.created request
  sessions sid session h := by
    obtain ⟨h, hlogout⟩ := hsessions sid session h
    obtain ⟨⟨request, w, hmem⟩, hnot⟩ := inv.sessions sid session h
    refine ⟨⟨request, w, List.mem_append_left _ hmem⟩, fun hsid => ?_⟩
    rw [List.mem_append, List.mem_singleton, not_or]
    exact ⟨hnot hsid, Ne.symm (hlogout hsid)⟩

/-- Issuing a state that nobody has mentioned. -/
theorem authStart (inv : AuthInvariant cfg trace srv) (agent : ℕ) (verifier state nonce : Bytes) (hnonce : nonce ≠ [])
    (hfresh : ∀ e ∈ trace, e.mentions state = false) :
    AuthInvariant cfg (trace ++ [.authStart agent verifier state nonce])
      (srv.authStart verifier state nonce hnonce) where
  clock := by rw [elapsed_append_singleton]; exact inv.clock
  issued s := by
    rw [countP_append_singleton]
    by_cases hs : state = s
    · subst hs
      have hissues : ∀ e : AuthEvent, e.issues state = true → e.mentions state = true := by
        intro e he
        cases e <;> first | exact he | cases he
      rw [countP_eq_zero_of_mentions hissues hfresh]
      split <;> decide
    · rw [if_neg (by simpa [AuthEvent.issues] using hs)]
      exact inv.issued s
  pending s flow h := by
    rw [countP_append_singleton]
    change update srv.pending state _ s = some flow at h
    rw [Function.update_apply] at h
    split at h
    · next hs =>
      cases h
      subst hs
      refine ⟨⟨trace, agent, [], rfl, congrArg (· + seconds 600) inv.clock⟩, ?_⟩
      have hredeems : ∀ e : AuthEvent, e.redeems s = true → e.mentions s = true := by
        intro e he
        cases e with
        | redeem agent request req answer =>
          cases answer with
          | none => cases he
          | some flow => exact he
        | _ => cases he
      exact countP_eq_zero_of_mentions hredeems hfresh
    · obtain ⟨hissued, hunredeemed⟩ := inv.pending s flow h
      exact ⟨hissued.append _, hunredeemed⟩
  redeemed s := by
    rw [countP_append_singleton]
    exact inv.redeemed s
  inFlight request flow h := by
    obtain ⟨agent, req, hmem⟩ := inv.inFlight request flow h
    exact ⟨agent, req, List.mem_append_left _ hmem⟩
  created request := by
    rw [countP_append_singleton]
    exact inv.created request
  sessions sid session h := by
    obtain ⟨⟨request, w, hmem⟩, hnot⟩ := inv.sessions sid session h
    refine ⟨⟨request, w, List.mem_append_left _ hmem⟩, fun hsid => ?_⟩
    rw [List.mem_append, List.mem_singleton, not_or]
    exact ⟨hnot hsid, nofun⟩

/-- The first half of a callback takes the flow that it redeems out of the pending ones. -/
theorem redeem (inv : AuthInvariant cfg trace srv) (agent request : ℕ) {req : CallbackRequest}
    {answer : Option PendingFlow} (h : srv.stepRedeem request req answer = some srv') :
    AuthInvariant cfg (trace ++ [.redeem agent request req answer]) srv' := by
  obtain ⟨habsent, hanswer, rfl⟩ := AuthServer.stepRedeem_spec h
  obtain ⟨hclock, hsessions, hcallbacks, hredeemed, hpending⟩ := @AuthServer.beginCallback_spec srv req
  have hcount : ∀ s, (trace ++ [AuthEvent.redeem agent request req answer]).countP (·.redeems s) ≤ 1 ∧
      ∀ flow, ((srv.beginCallback req).2.setCallback request (answer.elim .ended .redeemed)).pending s = some flow →
        (trace ++ [AuthEvent.redeem agent request req answer]).countP (·.redeems s) = 0 := by
    intro s
    rw [countP_append_singleton]
    cases answer with
    | none => exact ⟨inv.redeemed s, fun flow hflow => (inv.pending s flow (hpending s flow hflow)).2⟩
    | some flow =>
      obtain ⟨state, hstate, hflow, -, herased⟩ := hredeemed flow hanswer
      by_cases hs : state = s
      · subst hs
        rw [(inv.pending state flow hflow).2]
        refine ⟨by split <;> decide, fun flow' hflow' => ?_⟩
        change (srv.beginCallback req).2.pending state = some flow' at hflow'
        rw [herased, Function.update_self] at hflow'
        cases hflow'
      · have hother : ¬(AuthEvent.redeem agent request req (some flow)).redeems s = true := by
          simpa [AuthEvent.redeems, hstate] using hs
        rw [if_neg hother]
        exact ⟨inv.redeemed s, fun flow' hflow' => (inv.pending s flow' (hpending s flow' hflow')).2⟩
  constructor
  case clock => rw [elapsed_append_singleton]; exact hclock.trans inv.clock
  case issued =>
    intro s
    rw [countP_append_singleton]
    exact inv.issued s
  case pending =>
    intro s flow hflow
    exact ⟨(inv.pending s flow (hpending s flow hflow)).1.append _, (hcount s).2 flow hflow⟩
  case redeemed => exact fun s => (hcount s).1
  case inFlight =>
    intro r flow hflow
    change update (srv.beginCallback req).2.callbacks request _ r = _ at hflow
    rw [Function.update_apply] at hflow
    split at hflow
    · next hr =>
      subst hr
      cases answer with
      | none => cases hflow
      | some flow' =>
        cases hflow
        exact ⟨agent, req, List.mem_append_right _ (List.mem_singleton_self _)⟩
    · rw [hcallbacks] at hflow
      obtain ⟨agent', req', hmem⟩ := inv.inFlight r flow hflow
      exact ⟨agent', req', List.mem_append_left _ hmem⟩
  case created =>
    intro r
    rw [countP_append_singleton]
    refine ⟨(inv.created r).1, fun hr => (inv.created r).2 ?_⟩
    change update (srv.beginCallback req).2.callbacks request _ r ≠ _ at hr
    rw [Function.update_apply, hcallbacks] at hr
    split at hr
    · next hr' =>
      rw [hr', habsent]
      exact nofun
    · exact hr
  case sessions =>
    intro sid session hsession
    change (srv.beginCallback req).2.sessions sid = some session at hsession
    rw [hsessions] at hsession
    obtain ⟨⟨request', w, hmem⟩, hnot⟩ := inv.sessions sid session hsession
    refine ⟨⟨request', w, List.mem_append_left _ hmem⟩, fun hsid => ?_⟩
    rw [List.mem_append, List.mem_singleton, not_or]
    exact ⟨hnot hsid, nofun⟩

/-- The second half of a callback stores a session under an identifier that nobody has mentioned. -/
theorem finish (inv : AuthInvariant cfg trace srv) {request : ℕ} {w : CallbackWorld} {sid : Bytes}
    {answer : Option Session} (h : srv.stepFinish cfg request w sid answer = some srv')
    (hfresh : answer.isSome → ∀ e ∈ trace, e.mentions sid = false) :
    AuthInvariant cfg (trace ++ [.finish request w sid answer]) srv' := by
  obtain ⟨flow, result, hflow, -, -, rfl⟩ := AuthServer.stepFinish_spec h
  constructor
  case clock => rw [elapsed_append_singleton]; exact inv.clock
  case issued =>
    intro s
    rw [countP_append_singleton]
    exact inv.issued s
  case pending =>
    intro s flow' hflow'
    rw [countP_append_singleton]
    exact ⟨(inv.pending s flow' hflow').1.append _, (inv.pending s flow' hflow').2⟩
  case redeemed =>
    intro s
    rw [countP_append_singleton]
    exact inv.redeemed s
  case inFlight =>
    intro r flow' hflow'
    change update srv.callbacks request .ended r = _ at hflow'
    rw [Function.update_apply] at hflow'
    split at hflow'
    · cases hflow'
    · obtain ⟨agent, req, hmem⟩ := inv.inFlight r flow' hflow'
      exact ⟨agent, req, List.mem_append_left _ hmem⟩
  case created =>
    intro r
    rw [countP_append_singleton]
    change _ ∧ (update srv.callbacks request .ended r ≠ _ → _)
    rw [Function.update_apply]
    by_cases hr : r = request
    · subst hr
      rw [if_pos rfl, (inv.created r).2 (by rw [hflow]; exact nofun)]
      exact ⟨by split <;> decide, fun hended => absurd rfl hended⟩
    · have hother : ¬(AuthEvent.finish request w sid answer).creates r = true := by
        cases answer with
        | none => exact Bool.false_ne_true
        | some session => simpa [AuthEvent.creates] using Ne.symm hr
      rw [if_neg hother, if_neg hr]
      exact inv.created r
  case sessions =>
    intro x session hsession
    have hold : srv.sessions x = some session →
        (∃ request' w', .finish request' w' x (some session) ∈ trace ++ [.finish request w sid answer]) ∧
          (x ≠ [] → .logout x ∉ trace ++ [.finish request w sid answer]) := by
      intro hsession
      obtain ⟨⟨request', w', hmem⟩, hnot⟩ := inv.sessions x session hsession
      refine ⟨⟨request', w', List.mem_append_left _ hmem⟩, fun hx => ?_⟩
      rw [List.mem_append, List.mem_singleton, not_or]
      exact ⟨hnot hx, nofun⟩
    cases answer with
    | none => exact hold hsession
    | some created =>
      change update srv.sessions sid (some created) x = some session at hsession
      rw [Function.update_apply] at hsession
      split at hsession
      · next hx =>
        cases hsession
        subst hx
        refine ⟨⟨request, w, List.mem_append_right _ (List.mem_singleton_self _)⟩, fun _ hlogout => ?_⟩
        rcases List.mem_append.mp hlogout with hlogout | hlogout
        · have hmention := hfresh rfl _ hlogout
          simp [AuthEvent.mentions] at hmention
        · cases List.mem_singleton.mp hlogout
      · exact hold hsession

end AuthInvariant

/-- A part of a fresh trace is fresh. -/
theorem Fresh.of_append {before after : List AuthEvent} (h : Fresh (before ++ after)) : Fresh before := by
  rintro earlier e later rfl s hs e' he'
  exact h earlier e (later ++ after) (by simp) s hs e' he'

variable {cfg : Config} {trace : List AuthEvent} {srv : AuthServer}

/-- The invariant holds after every history without forged values. -/
theorem AuthRun.keeps_invariant (run : AuthRun cfg trace srv) (fresh : Fresh trace) : AuthInvariant cfg trace srv := by
  have hrun : Fresh trace → AuthInvariant cfg trace srv := by
    apply Run.invariant (fun trace srv => Fresh trace → AuthInvariant cfg trace srv) _ _ run
    · intro _
      exact ⟨rfl, fun _ => zero_le_one, nofun, fun _ => zero_le_one, nofun, fun _ => ⟨zero_le_one, fun _ => rfl⟩, nofun⟩
    · intro trace srv e srv' _ ih htaken fresh
      have inv := ih fresh.of_append
      have hnew := fresh trace e [] rfl
      cases e with
      | advance d =>
        cases htaken
        exact inv.quiet rfl (fun _ => rfl) (fun _ => rfl) (fun _ => rfl) (fun _ _ h => h) rfl
          fun _ _ h => ⟨h, fun _ => nofun⟩
      | authStart agent verifier state nonce =>
        simp only [AuthServer.step] at htaken
        split at htaken
        · next hnonce =>
          cases htaken
          exact inv.authStart agent verifier state nonce hnonce (hnew state (by simp [AuthEvent.draws]))
        · cases htaken
      | redeem agent request req answer => exact inv.redeem agent request htaken
      | finish request w sid answer =>
        refine inv.finish htaken fun hanswer => hnew sid ?_
        obtain ⟨session, rfl⟩ := Option.isSome_iff_exists.mp hanswer
        simp [AuthEvent.draws]
      | logout sid =>
        cases htaken
        refine inv.quiet ?_ (fun _ => rfl) (fun _ => rfl) (fun _ => rfl) ?_ ?_ ?_
        · unfold AuthServer.logout; split <;> rfl
        · unfold AuthServer.logout; split <;> exact fun _ _ h => h
        · unfold AuthServer.logout; split <;> rfl
        · intro x session hsession
          unfold AuthServer.logout at hsession
          split at hsession
          · next hsid =>
            refine ⟨hsession, fun hx h => hx ?_⟩
            cases h
            exact hsid
          · change update srv.sessions sid none x = some session at hsession
            rw [Function.update_apply] at hsession
            split at hsession
            · cases hsession
            · next hx =>
              refine ⟨hsession, fun _ h => hx ?_⟩
              cases h
              rfl
      | getSession sid answer =>
        simp only [AuthServer.step] at htaken
        split at htaken
        · cases htaken
          obtain ⟨hclock, hpending, hcallbacks, hsessions, -⟩ := @AuthServer.getSession_spec srv sid
          exact inv.quiet hclock (fun _ => rfl) (fun _ => rfl) (fun _ => rfl) (fun _ _ h => hpending ▸ h) hcallbacks
            fun x session h => ⟨hsessions x session h, fun _ => nofun⟩
        · cases htaken
      | tell teller listener state =>
        cases htaken
        exact inv.quiet rfl (fun _ => rfl) (fun _ => rfl) (fun _ => rfl) (fun _ _ h => h) rfl
          fun _ _ h => ⟨h, fun _ => nofun⟩
  exact hrun fresh

/-- A redeemed flow was issued with its state, and not long before. -/
theorem AuthRun.redeemed_flow (run : AuthRun cfg trace srv) (fresh : Fresh trace)
    {before after : List AuthEvent} {agent request : ℕ} {req : CallbackRequest} {flow : PendingFlow}
    (htrace : trace = before ++ .redeem agent request req (some flow) :: after) :
    ∃ state issued issuer rest, req.state = some state ∧
      before = issued ++ .authStart issuer flow.verifier state flow.nonce :: rest ∧
      elapsed before ≤ elapsed issued + seconds 600 := by
  subst htrace
  obtain ⟨mid, mid', hbefore, htaken, -⟩ := run.taken_at
  have inv := AuthRun.keeps_invariant hbefore fresh.of_append
  obtain ⟨-, hanswer, -⟩ := AuthServer.stepRedeem_spec htaken
  obtain ⟨state, hstate, hpending, hexpires, -⟩ := (AuthServer.beginCallback_spec req).2.2.2.1 flow hanswer
  obtain ⟨issued, issuer, rest, hissued, hflow⟩ := (inv.pending state flow hpending).1
  refine ⟨state, issued, issuer, rest, hstate, hissued, ?_⟩
  rw [← inv.clock, ← hflow]
  exact hexpires

/-- A session is created by a callback that has redeemed a flow, whose nonce the claims repeat. -/
theorem AuthRun.created_session (run : AuthRun cfg trace srv) (fresh : Fresh trace)
    {before after : List AuthEvent} {request : ℕ} {w : CallbackWorld} {sid : Bytes} {session : Session}
    (htrace : trace = before ++ .finish request w sid (some session) :: after) :
    ∃ agent req flow payload claims, .redeem agent request req (some flow) ∈ before ∧
      idTokenPayload w.b64urlDecode (jsonStringField w.tokenJson (str "id_token")) = some payload ∧
      readClaims payload = some claims ∧ claims.nonce = flow.nonce := by
  subst htrace
  obtain ⟨mid, mid', hbefore, htaken, -⟩ := run.taken_at
  have inv := AuthRun.keeps_invariant hbefore fresh.of_append
  obtain ⟨flow, result, hflow, hfinish, hanswer, -⟩ := AuthServer.stepFinish_spec htaken
  obtain ⟨agent, req, hmem⟩ := inv.inFlight request flow hflow
  cases result with
  | error e => cases hanswer
  | ok session' =>
    obtain ⟨payload, claims, hpayload, hclaims, -, -, -, hnonce, -⟩ := finishCallback_eq_ok hfinish
    exact ⟨agent, req, flow, payload, claims, hmem, hpayload, hclaims, hnonce⟩

/-- Login flows are single-use: every session comes from a callback that redeemed a state issued once,
unexpired and redeemed by no other, and it is not returned after its expiry or a logout. -/
theorem login_flows_single_use (run : AuthRun cfg trace srv) (fresh : Fresh trace) :
    (∀ sid session, srv.sessions sid = some session →
      ∃ request w, .finish request w sid (some session) ∈ trace) ∧
    (∀ before after request w sid session, trace = before ++ .finish request w sid (some session) :: after →
      trace.countP (·.creates request) = 1 ∧
      ∃ agent req flow state, .redeem agent request req (some flow) ∈ before ∧ req.state = some state ∧
        trace.countP (·.issues state) = 1 ∧
        ∃ payload claims, idTokenPayload w.b64urlDecode (jsonStringField w.tokenJson (str "id_token")) = some payload ∧
          readClaims payload = some claims ∧ claims.nonce = flow.nonce) ∧
    (∀ state, trace.countP (·.redeems state) ≤ 1) ∧
    (∀ before after agent request req flow, trace = before ++ .redeem agent request req (some flow) :: after →
      ∃ state issued issuer rest, req.state = some state ∧
        before = issued ++ .authStart issuer flow.verifier state flow.nonce :: rest ∧
        elapsed before ≤ elapsed issued + seconds 600) ∧
    ∀ before after sid session, trace = before ++ .getSession sid (some session) :: after →
      elapsed before ≤ session.expires ∧ .logout sid ∉ before := by
  have inv := run.keeps_invariant fresh
  refine ⟨fun sid session h => (inv.sessions sid session h).1, ?_, inv.redeemed,
    fun _ _ _ _ _ _ => run.redeemed_flow fresh, ?_⟩
  · intro before after request w sid session htrace
    have hcreates : 0 < trace.countP (·.creates request) := by
      rw [List.countP_pos_iff]
      exact ⟨_, htrace ▸ List.mem_append_right _ List.mem_cons_self, by simp [AuthEvent.creates]⟩
    refine ⟨le_antisymm (inv.created request).1 hcreates, ?_⟩
    obtain ⟨agent, req, flow, payload, claims, hmem, hclaims⟩ := run.created_session fresh htrace
    obtain ⟨before', after', hbefore⟩ := List.append_of_mem hmem
    have hredeem : trace = before' ++ .redeem agent request req (some flow) ::
        (after' ++ .finish request w sid (some session) :: after) := by
      rw [htrace, hbefore, List.append_assoc, List.cons_append]
    obtain ⟨state, issued, issuer, rest, hstate, hissued, -⟩ := run.redeemed_flow fresh hredeem
    have hissues : 0 < trace.countP (·.issues state) := by
      rw [List.countP_pos_iff]
      refine ⟨.authStart issuer flow.verifier state flow.nonce, ?_, by simp [AuthEvent.issues]⟩
      rw [hredeem, hissued, List.append_assoc]
      exact List.mem_append_right _ List.mem_cons_self
    exact ⟨agent, req, flow, state, hmem, hstate, le_antisymm (inv.issued state) hissues, payload, claims, hclaims⟩
  · rintro before after sid session rfl
    obtain ⟨mid, mid', hbefore, htaken, -⟩ := run.taken_at
    have hmid := AuthRun.keeps_invariant hbefore fresh.of_append
    simp only [AuthServer.step] at htaken
    split at htaken
    · next hanswer =>
      obtain ⟨hsid, hsession, hexpires⟩ := (AuthServer.getSession_spec sid).2.2.2.2 session hanswer
      rw [← hmid.clock]
      exact ⟨hexpires, (hmid.sessions sid session hsession).2 hsid⟩
    · cases htaken

/-- The session of alice. -/
def aliceSession : Session := ⟨str "alice", [], [], [], seconds 3600⟩

/-- A user agent starts to sign in and hands the callback URL to another one, which opens it. -/
def forwardedLogin : List AuthEvent :=
  [.authStart 0 (str "v0") (str "s0") (str "n0"),
    .tell 0 1 (str "s0"),
    .redeem 1 7 { code := some (str "c0"), state := some (str "s0") } (some aliceFlow),
    .finish 7 (answering aliceClaims) (str "sid") (some aliceSession),
    .getSession (str "sid") (some aliceSession)]

/-- The login with a forwarded state is a run of the server. -/
theorem forwardedLogin_run : ∃ srv, AuthRun {} forwardedLogin srv := by
  have hsome : (forwardedLogin.foldlM (AuthServer.step {}) {}).isSome = true := by decide +kernel
  obtain ⟨srv, hsrv⟩ := Option.isSome_iff_exists.mp hsome
  exact ⟨srv, Run.iff_foldlM.mpr hsrv⟩

/-- The login with a forwarded state draws nothing twice. -/
theorem forwardedLogin_fresh : Fresh forwardedLogin := by
  rw [Fresh, forall_splits_iff]
  intro i hi s hs
  match i, hi with
  | 0, _ => exact nofun
  | 1, _ => cases hs
  | 2, _ => cases hs
  | 3, _ =>
    obtain rfl : str "sid" = s := of_decide_eq_true hs
    decide
  | 4, _ => cases hs

/-- Each flow of the forwarded login is redeemed at most once. -/
theorem login_flows_single_use_forwarded : ∃ srv, AuthRun {} forwardedLogin srv ∧
    forwardedLogin.countP (·.creates 7) = 1 ∧ forwardedLogin.countP (·.redeems (str "s0")) ≤ 1 := by
  obtain ⟨srv, run⟩ := forwardedLogin_run
  obtain ⟨-, hcreated, hredeemed, -⟩ := login_flows_single_use run forwardedLogin_fresh
  exact ⟨srv, run, (hcreated (forwardedLogin.take 3) _ 7 _ _ _ rfl).1, hredeemed _⟩

/-- A state was issued to some user agent. -/
def Issued (trace : List AuthEvent) (state : Bytes) : Prop :=
  ∃ agent verifier nonce, .authStart agent verifier state nonce ∈ trace

/-- A user agent was issued a state or was told it. -/
def Learned (trace : List AuthEvent) (agent : ℕ) (state : Bytes) : Prop :=
  (∃ verifier nonce, .authStart agent verifier state nonce ∈ trace) ∨ ∃ teller, .tell teller agent state ∈ trace

/-- The user agent that sends an event and the state that it sends. -/
def AuthEvent.sends : AuthEvent → Option (ℕ × Bytes)
  | .redeem agent _ req _ => req.state.map fun state => (agent, state)
  | .tell teller _ state => some (teller, state)
  | _ => none

/-- Nobody guesses an issued state: who sends one has learned it before. -/
def SendsLearned (trace : List AuthEvent) : Prop :=
  ∀ before e after, trace = before ++ e :: after → ∀ agent state, e.sends = some (agent, state) →
    Issued before state → Learned before agent state

/-- An event with its user agents taken off. -/
def AuthEvent.anonymous : AuthEvent → AuthEvent
  | .authStart _ verifier state nonce => .authStart 0 verifier state nonce
  | .redeem _ request req answer => .redeem 0 request req answer
  | .tell _ _ state => .tell 0 0 state
  | e => e

/-- The program does not look at user agents. -/
theorem AuthServer.step_anonymous (cfg : Config) (srv : AuthServer) (e : AuthEvent) :
    srv.step cfg e.anonymous = srv.step cfg e := by cases e <;> rfl

/-- So the same requests sent by others have the same answers and leave the same server. -/
theorem AuthRun.of_anonymous (run : AuthRun cfg trace srv) {trace' : List AuthEvent}
    (h : trace'.map AuthEvent.anonymous = trace.map AuthEvent.anonymous) : AuthRun cfg trace' srv := by
  have hfold (trace : List AuthEvent) : (trace.map AuthEvent.anonymous).foldlM (AuthServer.step cfg) ({} : AuthServer) =
      trace.foldlM (AuthServer.step cfg) {} := by
    rw [List.foldlM_map]
    simp only [AuthServer.step_anonymous]
  rw [AuthRun, Run.iff_foldlM, ← hfold, h, hfold]
  exact Run.iff_foldlM.mp run

/-- When a callback signs a user agent in, the state that it redeemed was issued before, by one request of some
user agent, and no other callback has redeemed it. Which user agents send the requests makes no difference. -/
theorem signed_in_with_issued_state (run : AuthRun cfg trace srv) (fresh : Fresh trace) :
    (∀ before after request w sid session, trace = before ++ .finish request w sid (some session) :: after →
      ∃ agent req flow state issued issuer between rest,
        before = issued ++ .authStart issuer flow.verifier state flow.nonce :: between ++
          .redeem agent request req (some flow) :: rest ∧
        req.state = some state ∧ trace.countP (·.issues state) = 1 ∧ trace.countP (·.redeems state) = 1) ∧
      ∀ trace', trace'.map AuthEvent.anonymous = trace.map AuthEvent.anonymous → AuthRun cfg trace' srv := by
  refine ⟨fun before after request w sid session htrace => ?_, fun trace' => run.of_anonymous⟩
  have inv := run.keeps_invariant fresh
  obtain ⟨agent, req, flow, payload, claims, hmem, -⟩ := run.created_session fresh htrace
  obtain ⟨before', rest, rfl⟩ := List.append_of_mem hmem
  rw [List.append_assoc] at htrace
  obtain ⟨state, issued, issuer, between, hstate, rfl, -⟩ := run.redeemed_flow fresh htrace
  refine ⟨agent, req, flow, state, issued, issuer, between, rest, rfl, hstate, le_antisymm (inv.issued state) ?_,
    le_antisymm (inv.redeemed state) ?_⟩
  · rw [Nat.one_le_iff_ne_zero, ← Nat.pos_iff_ne_zero, List.countP_pos_iff]
    refine ⟨.authStart issuer flow.verifier state flow.nonce, ?_, by simp [AuthEvent.issues]⟩
    rw [htrace]
    simp
  · rw [Nat.one_le_iff_ne_zero, ← Nat.pos_iff_ne_zero, List.countP_pos_iff]
    refine ⟨.redeem agent request req (some flow), ?_, by simp [AuthEvent.redeems, hstate]⟩
    rw [htrace]
    simp

/-- The same requests, the first of which is sent by the user agent that is signed in. -/
def ownLogin : List AuthEvent := .authStart 1 (str "v0") (str "s0") (str "n0") :: forwardedLogin.tail

/-- The state of the forwarded login was issued once and redeemed once, and so it is in the login of the agent
itself. -/
theorem signed_in_with_issued_state_forwarded :
    forwardedLogin.countP (·.issues (str "s0")) = 1 ∧ forwardedLogin.countP (·.redeems (str "s0")) = 1 ∧
      ∃ srv, AuthRun {} forwardedLogin srv ∧ AuthRun {} ownLogin srv := by
  obtain ⟨srv, run⟩ := forwardedLogin_run
  obtain ⟨hsigned, hsame⟩ := signed_in_with_issued_state run forwardedLogin_fresh
  obtain ⟨agent, req, flow, state, issued, issuer, between, rest, hbefore, hstate, hissues, hredeems⟩ :=
    hsigned (forwardedLogin.take 3) _ 7 _ _ _ rfl
  have hmem : .redeem agent 7 req (some flow) ∈ forwardedLogin.take 3 := by
    rw [hbefore]
    simp
  simp only [forwardedLogin, List.take_succ_cons, List.take_zero, List.mem_cons, reduceCtorEq, List.not_mem_nil,
    AuthEvent.redeem.injEq, false_or, or_false] at hmem
  obtain rfl : str "s0" = state := by
    rw [hmem.2.2.1] at hstate
    exact Option.some.inj hstate
  exact ⟨hissues, hredeems, srv, run, hsame ownLogin rfl⟩

/-- In the forwarded login every agent sends states it was told. -/
theorem forwardedLogin_sendsLearned : SendsLearned forwardedLogin := by
  rw [SendsLearned, forall_splits_iff]
  intro i hi agent state hsends _
  match i, hi with
  | 0, _ => cases hsends
  | 1, _ =>
    cases hsends
    exact .inl ⟨_, _, List.mem_cons_self⟩
  | 2, _ =>
    cases hsends
    exact .inr ⟨0, List.mem_cons_of_mem _ List.mem_cons_self⟩
  | 3, _ => cases hsends
  | 4, _ => cases hsends

/-- An agent is signed in with a state that was issued to another agent. -/
theorem signed_in_with_foreign_state : ∃ trace srv, AuthRun {} trace srv ∧ Fresh trace ∧ SendsLearned trace ∧
    ∃ request w sid session req flow state, .finish request w sid (some session) ∈ trace ∧
      .redeem 1 request req (some flow) ∈ trace ∧ req.state = some state ∧
      ∀ agent verifier nonce, .authStart agent verifier state nonce ∈ trace → agent ≠ 1 := by
  obtain ⟨srv, run⟩ := forwardedLogin_run
  refine ⟨forwardedLogin, srv, run, forwardedLogin_fresh, forwardedLogin_sendsLearned, 7, answering aliceClaims,
    str "sid", aliceSession, { code := some (str "c0"), state := some (str "s0") }, aliceFlow, str "s0", ?_, ?_, rfl,
    ?_⟩
  · simp [forwardedLogin]
  · simp [forwardedLogin]
  · intro agent verifier nonce hmem
    simp only [forwardedLogin, List.mem_cons, reduceCtorEq, AuthEvent.authStart.injEq, List.not_mem_nil,
      or_false] at hmem
    rw [hmem.1]
    decide

end ZeroTrust
