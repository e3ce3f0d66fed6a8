import ZeroTrust.WebUi.JsonWriter
import ZeroTrust.WebUi.Sessions

/-!
# The `/me` endpoint

`me` looks the session of its request up twice: `require_session` decides whether to answer `401`, and a
second `get_session` delivers the fields. Each look-up holds `sess_mu_`, nothing holds it in between. A
history interleaves the look-ups of any number of requests with `logout`, other look-ups and the clock.
-/

namespace ZeroTrust

open Function (update)

/-- The body of a `401`. -/
def notSignedIn : Bytes := str "\x7b\"error\":\"not_signed_in\"\x7d"

/-- The body that `me` writes for a session. -/
def meText (session : Session) : Bytes :=
  str "\x7b\"sub\":\"" ++ jsonEscape session.sub ++ str "\"," ++
    str "\"email\":\"" ++ jsonEscape session.email ++ str "\"," ++
    str "\"username\":\"" ++ jsonEscape session.username ++ str "\"," ++
    str "\"picture\":\"" ++ jsonEscape session.picture ++ str "\"\x7d"

/-- Where a request to `/me` stands; the last stage is `s->sub` on an empty `std::optional`. -/
inductive MeStage
  | absent
  | checked (sid : Bytes)
  | responded (status : ℕ) (body : Bytes)
  | dereferencedEmpty
deriving DecidableEq

/-- The request is over. -/
def MeStage.Over : MeStage → Prop
  | .responded _ _ | .dereferencedEmpty => True
  | _ => False

/-- The session store with the requests to `/me`. -/
structure MeServer where
  auth : AuthServer
  requests : ℕ → MeStage := fun _ => .absent

/-- What can happen to the store: the look-ups of a request, those of other requests, `logout` and time. -/
inductive MeEvent
  | advance (d : ℕ)
  | logout (sid : Bytes)
  | lookup (sid : Bytes)
  | require (request : ℕ) (sid : Bytes)
  | get (request : ℕ)
deriving DecidableEq

namespace MeServer

/-- The request moves on, with the store after its look-up. -/
def move (st : MeServer) (request : ℕ) (auth : AuthServer) (stage : MeStage) : MeServer :=
  ⟨auth, update st.requests request stage⟩

section

variable (st : MeServer) (auth : AuthServer) (stage : MeStage) {request other : ℕ}

/-- Moving a request to a stage sets the session store as given. -/
@[simp] theorem move_auth : (st.move request auth stage).auth = auth := rfl

/-- The request that moves is at its new stage. -/
@[simp] theorem move_requests_self : (st.move request auth stage).requests request = stage :=
  Function.update_self _ _ _

/-- Every other request stays at its stage. -/
theorem move_requests_of_ne (h : other ≠ request) : (st.move request auth stage).requests other = st.requests other :=
  Function.update_of_ne h _ _

end

/-- `require_session`, for the identifier in the cookie. -/
def requireSession (st : MeServer) (request : ℕ) (sid : Bytes) : MeServer :=
  match st.auth.getSession sid with
  | (some _, auth) => st.move request auth (.checked sid)
  | (none, auth) => st.move request auth (.responded 401 notSignedIn)

/-- The second look-up, and the answer. -/
def answer (st : MeServer) (request : ℕ) (sid : Bytes) : MeServer :=
  match st.auth.getSession sid with
  | (some session, auth) => st.move request auth (.responded 200 (meText session))
  | (none, auth) => st.move request auth .dereferencedEmpty

/-- An event, if it is possible. -/
def step (st : MeServer) : MeEvent → Option MeServer
  | .advance d => some { st with auth := { st.auth with clock := st.auth.clock + d } }
  | .logout sid => some { st with auth := st.auth.logout sid }
  | .lookup sid => some { st with auth := (st.auth.getSession sid).2 }
  | .require request sid =>
    match st.requests request with
    | .absent => some (st.requireSession request sid)
    | _ => none
  | .get request =>
    match st.requests request with
    | .checked sid => some (st.answer request sid)
    | _ => none

end MeServer

/-- A history of the store from a state with any sessions. -/
abbrev MeRun (start : AuthServer) (trace : List MeEvent) (st : MeServer) : Prop :=
  Run MeServer.step { auth := start } trace st

/-- The time that an event takes. -/
def MeEvent.duration : MeEvent → ℕ
  | .advance d => d
  | _ => 0

/-- The clock after a history. -/
def clockAfter (start : AuthServer) (trace : List MeEvent) : SteadyTime :=
  start.clock + (trace.map MeEvent.duration).sum

/-- A session that a look-up finds after a history. -/
structure Found (start : AuthServer) (trace : List MeEvent) (sid : Bytes) (session : Session) : Prop where
  named : sid ≠ []
  stored : start.sessions sid = some session
  kept : .logout sid ∉ trace
  inTime : clockAfter start trace ≤ session.expires

/-- What a history leaves of the store: nothing is added, and what is not logged out or late is kept. -/
structure StoreInvariant (start : AuthServer) (trace : List MeEvent) (auth : AuthServer) : Prop where
  clock : auth.clock = clockAfter start trace
  old : ∀ sid session, auth.sessions sid = some session →
    start.sessions sid = some session ∧ (sid ≠ [] → .logout sid ∉ trace)
  kept : ∀ sid session, Found start trace sid session → auth.sessions sid = some session

/-- An event moves the clock by its own duration. -/
theorem clockAfter_append (start : AuthServer) (trace : List MeEvent) (e : MeEvent) :
    clockAfter start (trace ++ [e]) = clockAfter start trace + e.duration := by
  simp [clockAfter, Nat.add_assoc]

/-- A look-up does not know of a longer history than the shorter one did. -/
theorem Found.before {start : AuthServer} {trace : List MeEvent} {e : MeEvent} {sid : Bytes} {session : Session}
    (h : Found start (trace ++ [e]) sid session) : Found start trace sid session := by
  have htime := h.inTime
  rw [clockAfter_append] at htime
  exact ⟨h.named, h.stored, fun hmem => h.kept (List.mem_append_left _ hmem), (Nat.le_add_right _ _).trans htime⟩

/-- When a look-up finds a session. -/
theorem getSession_eq_some {auth : AuthServer} {sid : Bytes} {session : Session} :
    (auth.getSession sid).1 = some session ↔
      sid ≠ [] ∧ auth.sessions sid = some session ∧ auth.clock ≤ session.expires := by
  constructor
  · exact (AuthServer.getSession_spec sid).2.2.2.2 session
  · intro h
    rw [AuthServer.getSession, if_neg h.1, h.2.1]
    dsimp only
    rw [if_neg (not_lt.mpr h.2.2)]

/-- A look-up erases nothing that is in time. -/
theorem getSession_keeps {auth : AuthServer} (sid : Bytes) {x : Bytes} {session : Session}
    (hstored : auth.sessions x = some session) (htime : auth.clock ≤ session.expires) :
    (auth.getSession sid).2.sessions x = some session := by
  unfold AuthServer.getSession
  split
  · exact hstored
  · split
    · exact hstored
    · next found hfound =>
      split
      · next hlate =>
        change update auth.sessions sid none x = _
        rw [Function.update_of_ne, hstored]
        rintro rfl
        rw [hstored] at hfound
        cases hfound
        exact absurd htime (not_le.mpr hlate)
      · exact hstored

namespace StoreInvariant

variable {start auth : AuthServer} {trace : List MeEvent}

/-- The invariant holds of the store at the start of a run. -/
theorem initially (start : AuthServer) : StoreInvariant start [] start where
  clock := rfl
  old _ _ h := ⟨h, fun _ => nofun⟩
  kept _ _ h := h.stored

/-- A look-up in the store is decided by the history. -/
theorem getSession_iff (inv : StoreInvariant start trace auth) {sid : Bytes} {session : Session} :
    (auth.getSession sid).1 = some session ↔ Found start trace sid session := by
  rw [getSession_eq_some, inv.clock]
  constructor
  · intro h
    obtain ⟨hstart, hkept⟩ := inv.old sid session h.2.1
    exact ⟨h.1, hstart, hkept h.1, h.2.2⟩
  · exact fun h => ⟨h.named, inv.kept sid session h, h.inTime⟩

/-- An event that only looks a session up. -/
theorem look (inv : StoreInvariant start trace auth) (sid : Bytes) {e : MeEvent} (hlogout : ∀ x, e ≠ .logout x)
    (hduration : e.duration = 0) : StoreInvariant start (trace ++ [e]) (auth.getSession sid).2 := by
  obtain ⟨hclock, -, -, hold, -⟩ := @AuthServer.getSession_spec auth sid
  constructor
  · rw [hclock, inv.clock, clockAfter_append, hduration, Nat.add_zero]
  · intro x session h
    obtain ⟨hstart, hkept⟩ := inv.old x session (hold x session h)
    refine ⟨hstart, fun hx hmem => ?_⟩
    rcases List.mem_append.mp hmem with hbefore | hlast
    · exact hkept hx hbefore
    · exact hlogout x (List.mem_singleton.mp hlast).symm
  · intro x session h
    apply getSession_keeps sid (inv.kept x session h.before)
    rw [inv.clock]
    exact h.before.inTime

/-- A logout keeps the invariant. -/
theorem logout (inv : StoreInvariant start trace auth) (sid : Bytes) :
    StoreInvariant start (trace ++ [.logout sid]) (auth.logout sid) := by
  have hclock : (auth.logout sid).clock = auth.clock := by
    unfold AuthServer.logout
    split <;> rfl
  have hsessions : ∀ x, (auth.logout sid).sessions x = if sid ≠ [] ∧ x = sid then none else auth.sessions x := by
    intro x
    unfold AuthServer.logout
    by_cases hsid : sid = []
    · rw [if_pos hsid, if_neg fun h => h.1 hsid]
    · rw [if_neg hsid]
      change update auth.sessions sid none x = _
      rw [Function.update_apply]
      exact if_congr (by simp [hsid]) rfl rfl
  constructor
  · rw [hclock, inv.clock, clockAfter_append]
    rfl
  · intro x session h
    rw [hsessions] at h
    split at h
    · cases h
    · next hother =>
      obtain ⟨hstart, hkept⟩ := inv.old x session h
      refine ⟨hstart, fun hx hmem => ?_⟩
      rcases List.mem_append.mp hmem with hbefore | hlast
      · exact hkept hx hbefore
      · cases List.mem_singleton.mp hlast
        exact hother ⟨hx, rfl⟩
  · intro x session h
    rw [hsessions, if_neg, inv.kept x session h.before]
    rintro ⟨-, rfl⟩
    exact h.kept (List.mem_append_right _ (List.mem_singleton_self _))

/-- Time passing keeps the invariant. -/
theorem advance (inv : StoreInvariant start trace auth) (d : ℕ) :
    StoreInvariant start (trace ++ [.advance d]) { auth with clock := auth.clock + d } where
  clock := by rw [clockAfter_append, inv.clock]; rfl
  old x session h := by
    obtain ⟨hstart, hkept⟩ := inv.old x session h
    exact ⟨hstart, fun hx hmem => hkept hx (by simpa using hmem)⟩
  kept x session h := inv.kept x session h.before

end StoreInvariant

section Requests

variable {start : AuthServer} {trace : List MeEvent} {st st' : MeServer} {request : ℕ} {sid : Bytes}

/-- What the middleware does: it looks the session up, moves its own request only, and either lets it pass or answers
401. -/
theorem requireSession_spec (st : MeServer) (request : ℕ) (sid : Bytes) :
    (st.requireSession request sid).auth = (st.auth.getSession sid).2 ∧
      (∀ other, other ≠ request → (st.requireSession request sid).requests other = st.requests other) ∧
      (st.requireSession request sid).requests request =
        if (st.auth.getSession sid).1.isSome then .checked sid else .responded 401 notSignedIn := by
  unfold MeServer.requireSession
  split
  · next session auth hget =>
    rw [hget]
    exact ⟨rfl, fun other h => st.move_requests_of_ne auth _ h, st.move_requests_self auth _⟩
  · next auth hget =>
    rw [hget]
    exact ⟨rfl, fun other h => st.move_requests_of_ne auth _ h, st.move_requests_self auth _⟩

/-- What the handler does: it looks the session up again, and either answers with it or reads an empty optional. -/
theorem answer_spec (st : MeServer) (request : ℕ) (sid : Bytes) :
    (st.answer request sid).auth = (st.auth.getSession sid).2 ∧
      (∀ other, other ≠ request → (st.answer request sid).requests other = st.requests other) ∧
      (st.answer request sid).requests request =
        match (st.auth.getSession sid).1 with
        | some session => .responded 200 (meText session)
        | none => .dereferencedEmpty := by
  unfold MeServer.answer
  split
  · next session auth hget =>
    rw [hget]
    exact ⟨rfl, fun other h => st.move_requests_of_ne auth _ h, st.move_requests_self auth _⟩
  · next auth hget =>
    rw [hget]
    exact ⟨rfl, fun other h => st.move_requests_of_ne auth _ h, st.move_requests_self auth _⟩

/-- What an event can do: touch the store only, or be one of the two look-ups of a request. -/
theorem step_cases {e : MeEvent} (h : st.step e = some st') :
    ((∀ request sid, e ≠ .require request sid) ∧ (∀ request, e ≠ .get request) ∧ st'.requests = st.requests) ∨
      (∃ request sid, e = .require request sid ∧ st.requests request = .absent ∧
        st' = st.requireSession request sid) ∨
      ∃ request sid, e = .get request ∧ st.requests request = .checked sid ∧ st' = st.answer request sid := by
  cases e with
  | advance d | logout sid | lookup sid =>
    cases h
    exact .inl ⟨nofun, nofun, rfl⟩
  | require request sid =>
    rw [MeServer.step] at h
    split at h
    · next habsent =>
      cases h
      exact .inr (.inl ⟨request, sid, rfl, habsent, rfl⟩)
    · cases h
  | get request =>
    rw [MeServer.step] at h
    split at h
    · next sid hchecked =>
      cases h
      exact .inr (.inr ⟨request, sid, rfl, hchecked, rfl⟩)
    · cases h

/-- The store is what the history says. -/
theorem MeRun.store (run : MeRun start trace st) : StoreInvariant start trace st.auth := by
  refine run.invariant (fun trace st => StoreInvariant start trace st.auth) (.initially start) ?_
  intro trace st e st' _ inv h
  cases e with
  | advance d =>
    cases h
    exact inv.advance d
  | logout sid =>
    cases h
    exact inv.logout sid
  | lookup sid =>
    cases h
    exact inv.look sid nofun rfl
  | require request sid =>
    rw [MeServer.step] at h
    split at h
    · cases h
      rw [(requireSession_spec st request sid).1]
      exact inv.look sid nofun rfl
    · cases h
  | get request =>
    rw [MeServer.step] at h
    split at h
    · next sid hchecked =>
      cases h
      rw [(answer_spec st request sid).1]
      exact inv.look sid nofun rfl
    · cases h

/-- A request that is over stays as it is, and a checked one stays checked until it is over. -/
theorem step_stage {e : MeEvent} (h : st.step e = some st') (request : ℕ) :
    ((st.requests request).Over → st'.requests request = st.requests request) ∧
      (∀ sid, st.requests request = .checked sid →
        e ≠ .get request ∧ st'.requests request = .checked sid ∨ e = .get request ∧ (st'.requests request).Over) := by
  rcases step_cases h with ⟨-, hget, hrequests⟩ | ⟨moved, sid, rfl, habsent, rfl⟩ | ⟨moved, sid, rfl, hchecked, rfl⟩
  · rw [hrequests]
    exact ⟨fun _ => rfl, fun sid hsid => .inl ⟨hget request, hsid⟩⟩
  · obtain ⟨-, hother, -⟩ := requireSession_spec st moved sid
    by_cases hmoved : request = moved
    · rw [hmoved, habsent]
      exact ⟨False.elim, nofun⟩
    · rw [hother request hmoved]
      exact ⟨fun _ => rfl, fun sid hsid => .inl ⟨nofun, hsid⟩⟩
  · obtain ⟨-, hother, hself⟩ := answer_spec st moved sid
    by_cases hmoved : request = moved
    · rw [hmoved, hself, hchecked]
      refine ⟨False.elim, fun _ _ => .inr ⟨rfl, ?_⟩⟩
      split <;> trivial
    · rw [hother request hmoved]
      refine ⟨fun _ => rfl, fun sid hsid => .inl ⟨?_, hsid⟩⟩
      rintro ⟨⟩
      exact hmoved rfl

/-- A request that is over stays as it is. -/
theorem Run.stays_over {mid : MeServer} {after : List MeEvent} (run : Run MeServer.step mid after st)
    (hmid : (mid.requests request).Over) : st.requests request = mid.requests request := by
  refine run.invariant (fun _ st => st.requests request = mid.requests request) rfl ?_
  intro trace st e st' _ ih h
  rw [← ih] at hmid
  rw [(step_stage h request).1 hmid, ih]

/-- A checked request stays checked until it is over. -/
theorem Run.stays_checked {mid : MeServer} {middle : List MeEvent} (run : Run MeServer.step mid middle st)
    (hmid : mid.requests request = .checked sid) :
    st.requests request = .checked sid ∨ (st.requests request).Over := by
  refine run.invariant (fun _ st => st.requests request = .checked sid ∨ (st.requests request).Over) (.inl hmid) ?_
  intro trace st e st' _ ih h
  obtain ⟨hover, hchecked⟩ := step_stage h request
  rcases ih with ih | ih
  · exact (hchecked sid ih).imp And.right And.right
  · right
    rwa [hover ih]

/-- A request that has been checked was checked by a look-up of its own that found a session, and its second
look-up is still to come. -/
theorem MeRun.checked (run : MeRun start trace st) (h : st.requests request = .checked sid) :
    ∃ before middle session, trace = before ++ .require request sid :: middle ∧ Found start before sid session := by
  revert h
  refine run.invariant (fun trace st => st.requests request = .checked sid → ∃ before middle session,
    trace = before ++ .require request sid :: middle ∧ Found start before sid session) (by nofun) ?_
  intro trace st e st' run ih h hsid
  have hlater : st.requests request = .checked sid → ∃ before middle session,
      trace ++ [e] = before ++ .require request sid :: middle ∧ Found start before sid session := by
    intro hst
    obtain ⟨before, middle, session, htrace, hfound⟩ := ih hst
    exact ⟨before, middle ++ [e], session, by simp [htrace], hfound⟩
  rcases step_cases h with ⟨-, -, hrequests⟩ | ⟨moved, id, rfl, habsent, rfl⟩ | ⟨moved, id, rfl, hchecked, rfl⟩
  · rw [hrequests] at hsid
    exact hlater hsid
  · obtain ⟨-, hother, hself⟩ := requireSession_spec st moved id
    by_cases hmoved : request = moved
    · subst hmoved
      rw [hself] at hsid
      split at hsid
      · next hsome =>
        cases hsid
        obtain ⟨session, hsession⟩ := Option.isSome_iff_exists.mp hsome
        exact ⟨trace, [], session, rfl, (MeRun.store run).getSession_iff.mp hsession⟩
      · cases hsid
    · rw [hother request hmoved] at hsid
      exact hlater hsid
  · obtain ⟨-, hother, hself⟩ := answer_spec st moved id
    by_cases hmoved : request = moved
    · subst hmoved
      rw [hself] at hsid
      split at hsid <;> cases hsid
    · rw [hother request hmoved] at hsid
      exact hlater hsid

/-- What the second look-up of a request comes to. -/
theorem MeRun.answered {before middle after : List MeEvent}
    (run : MeRun start (before ++ .require request sid :: (middle ++ .get request :: after)) st) :
    ∃ session, Found start before sid session ∧
      (Found start (before ++ .require request sid :: middle) sid session →
        st.requests request = .responded 200 (meText session)) ∧
      (¬Found start (before ++ .require request sid :: middle) sid session →
        st.requests request = .dereferencedEmpty) := by
  obtain ⟨asked, checked, hbefore, hrequire, hlater⟩ := run.taken_at
  obtain ⟨waiting, moved, hmiddle, hget, hafter⟩ := hlater.taken_at
  have hwaiting : ∃ id, waiting.requests request = .checked id ∧ moved = waiting.answer request id := by
    rcases step_cases hget with ⟨-, hno, -⟩ | ⟨_, _, h, -⟩ | ⟨_, id, h, hchecked, hmoved⟩
    · exact absurd rfl (hno request)
    · cases h
    · cases h
      exact ⟨id, hchecked, hmoved⟩
  obtain ⟨id, hid, rfl⟩ := hwaiting
  have hchecked : checked = asked.requireSession request sid := by
    rcases step_cases hrequire with ⟨hno, -⟩ | ⟨_, _, h, -, hchecked⟩ | ⟨_, _, h, -⟩
    · exact absurd rfl (hno request sid)
    · cases h
      exact hchecked
    · cases h
  obtain ⟨-, -, hstage⟩ := requireSession_spec asked request sid
  rw [← hchecked] at hstage
  -- a `401` would have been the end of the request
  have hsome : (asked.auth.getSession sid).1.isSome := by
    by_contra hnone
    rw [if_neg hnone] at hstage
    have hover : waiting.requests request = checked.requests request :=
      Run.stays_over hmiddle (by rw [hstage]; trivial)
    rw [hid, hstage] at hover
    cases hover
  rw [if_pos hsome] at hstage
  have hsid : waiting.requests request = .checked sid := by
    rcases Run.stays_checked hmiddle hstage with h | h
    · exact h
    · rw [hid] at h
      exact h.elim
  obtain rfl : id = sid := MeStage.checked.inj (hid.symm.trans hsid)
  obtain ⟨session, hsession⟩ := Option.isSome_iff_exists.mp hsome
  have hfound := (MeRun.store hbefore).getSession_iff.mp hsession
  have hrun : MeRun start (before ++ .require request id :: middle) waiting := by
    have hall := (hbefore.next hrequire).append hmiddle
    rwa [List.append_assoc] at hall
  obtain ⟨-, -, hanswer⟩ := answer_spec waiting request id
  have hlast : ∀ stage, (waiting.answer request id).requests request = stage → stage.Over →
      st.requests request = stage := by
    rintro stage rfl hover
    exact Run.stays_over hafter hover
  refine ⟨session, hfound, fun hagain => ?_, fun hmissing => ?_⟩
  · refine hlast (.responded 200 (meText session)) ?_ trivial
    rw [hanswer, (MeRun.store hrun).getSession_iff.mpr hagain]
  · refine hlast .dereferencedEmpty ?_ trivial
    rw [hanswer]
    split
    · next other hother =>
      have hagain := (MeRun.store hrun).getSession_iff.mp hother
      cases hfound.stored.symm.trans hagain.stored
      exact absurd hagain hmissing
    · rfl

/-- A request is over after a failed look-up, which answers `401`, or after its second look-up. -/
theorem MeRun.over (run : MeRun start trace st) (h : (st.requests request).Over) :
    (∃ sid, .require request sid ∈ trace ∧ st.requests request = .responded 401 notSignedIn) ∨
      ∃ before sid middle after, trace = before ++ .require request sid :: (middle ++ .get request :: after) := by
  revert h
  refine run.invariant (fun trace st => (st.requests request).Over →
    (∃ sid, .require request sid ∈ trace ∧ st.requests request = .responded 401 notSignedIn) ∨
      ∃ before sid middle after, trace = before ++ .require request sid :: (middle ++ .get request :: after))
    False.elim ?_
  intro trace st e st' run ih h hover
  by_cases hst : (st.requests request).Over
  · rw [(step_stage h request).1 hst]
    rcases ih hst with ⟨sid, hmem, hstage⟩ | ⟨before, sid, middle, after, htrace⟩
    · exact .inl ⟨sid, List.mem_append_left _ hmem, hstage⟩
    · exact .inr ⟨before, sid, middle, after ++ [e], by simp [htrace]⟩
  · rcases step_cases h with ⟨-, -, hrequests⟩ | ⟨moved, id, rfl, habsent, rfl⟩ | ⟨moved, id, rfl, hchecked, rfl⟩
    · rw [hrequests] at hover
      exact absurd hover hst
    · obtain ⟨-, hother, hself⟩ := requireSession_spec st moved id
      by_cases hmoved : request = moved
      · subst hmoved
        rw [hself] at hover ⊢
        split at hover
        · exact hover.elim
        · next hnone => exact .inl ⟨id, by simp, if_neg hnone⟩
      · rw [hother request hmoved] at hover
        exact absurd hover hst
    · by_cases hmoved : request = moved
      · subst hmoved
        obtain ⟨before, middle, session, htrace, -⟩ := MeRun.checked run hchecked
        exact .inr ⟨before, id, middle, [], by simp [htrace]⟩
      · rw [(answer_spec st moved id).2.1 request hmoved] at hover
        exact absurd hover hst

end Requests

/-- A request is answered with a `401`, or with the fields of the session under its identifier. -/
structure AnswersSafely (start : AuthServer) (trace : List MeEvent) (request : ℕ) (stage : MeStage) : Prop where
  present : stage ≠ .dereferencedEmpty
  answer : ∀ status body, stage = .responded status body → ∃ sid, .require request sid ∈ trace ∧
    (status = 401 ∧ body = notSignedIn ∨
      ∃ session, start.sessions sid = some session ∧ status = 200 ∧ body = meText session)

/-- Between the two look-ups of a request whose first look-up succeeds the session is not logged out, and at the
second it has not expired. -/
def LookUpsUndisturbed (start : AuthServer) (trace : List MeEvent) : Prop :=
  ∀ before request sid middle after, trace = before ++ .require request sid :: (middle ++ .get request :: after) →
    .logout sid ∉ middle ∧ ∀ session, start.sessions sid = some session →
      clockAfter start (before ++ .require request sid :: middle) ≤ session.expires

/-- Every request is answered safely if and only if nothing comes between its look-ups: `me` does not test the
session that its second look-up delivers, as `start_scan` does. -/
theorem me_answers_safely_iff {start : AuthServer} {trace : List MeEvent} {st : MeServer}
    (run : MeRun start trace st) :
    (∀ request, AnswersSafely start trace request (st.requests request)) ↔ LookUpsUndisturbed start trace := by
  constructor
  · rintro hsafe before request sid middle after rfl
    obtain ⟨session, hfound, -, hmissing⟩ := MeRun.answered run
    have hagain : Found start (before ++ .require request sid :: middle) sid session := by
      by_contra h
      exact (hsafe request).present (hmissing h)
    constructor
    · intro hmem
      exact hagain.kept (List.mem_append_right _ (List.mem_cons_of_mem _ hmem))
    · intro other hother
      cases hagain.stored.symm.trans hother
      exact hagain.inTime
  · intro hundisturbed request
    by_cases hover : (st.requests request).Over
    · rcases MeRun.over run hover with ⟨sid, hmem, hstage⟩ | ⟨before, sid, middle, after, rfl⟩
      · rw [hstage]
        refine ⟨nofun, fun status body h => ⟨sid, hmem, .inl ?_⟩⟩
        cases h
        exact ⟨rfl, rfl⟩
      · obtain ⟨session, hfound, hanswered, -⟩ := MeRun.answered run
        obtain ⟨hkept, htime⟩ := hundisturbed before request sid middle after rfl
        have hagain : Found start (before ++ .require request sid :: middle) sid session := by
          refine ⟨hfound.named, hfound.stored, fun hmem => ?_, htime session hfound.stored⟩
          rcases List.mem_append.mp hmem with h | h
          · exact hfound.kept h
          · exact hkept ((List.mem_cons.mp h).resolve_left nofun)
        rw [hanswered hagain]
        refine ⟨nofun, fun status body h => ⟨sid, by simp, .inr ⟨session, hfound.stored, ?_⟩⟩⟩
        cases h
        exact ⟨rfl, rfl⟩
    · constructor
      · intro h
        rw [h] at hover
        exact hover trivial
      · intro status body h
        rw [h] at hover
        exact absurd trivial hover

/-- A store with one session, under the identifier `s`. -/
def oneSession : AuthServer :=
  { sessions := fun sid => if sid = str "s" then some ⟨str "u", [], [], [], 10⟩ else none }

/-- The equivalence in a run that meets an expiry between the two look-ups. -/
theorem me_answers_safely_iff_quiet : ∃ st, MeRun oneSession [.require 0 (str "s"), .advance 10, .get 0] st ∧
    ((∀ request, AnswersSafely oneSession [.require 0 (str "s"), .advance 10, .get 0] request (st.requests request)) ↔
      LookUpsUndisturbed oneSession [.require 0 (str "s"), .advance 10, .get 0]) := by
  obtain ⟨st, run, -⟩ := @Run.exists_of_any _ _ MeServer.step { auth := oneSession }
    [.require 0 (str "s"), .advance 10, .get 0] (fun _ => true) (by decide)
  exact ⟨st, run, me_answers_safely_iff run⟩

/-- A logout between the two look-ups of a request. -/
theorem me_dereferences_empty : ∃ st, MeRun oneSession [.require 0 (str "s"), .logout (str "s"), .get 0] st ∧
    ¬AnswersSafely oneSession [.require 0 (str "s"), .logout (str "s"), .get 0] 0 (st.requests 0) := by
  obtain ⟨st, run, hstage⟩ := @Run.exists_of_any _ _ MeServer.step { auth := oneSession }
    [.require 0 (str "s"), .logout (str "s"), .get 0] (fun st => st.requests 0 = .dereferencedEmpty) (by decide)
  exact ⟨st, run, fun h => h.present (of_decide_eq_true hstage)⟩

end ZeroTrust
