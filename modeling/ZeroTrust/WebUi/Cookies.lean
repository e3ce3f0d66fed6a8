import ZeroTrust.Lib.Loop
import ZeroTrust.WebUi.Sessions

/-!
# Reading cookies

`cookie_value` moves one cursor over the `Cookie` header: it skips blanks and semicolons, cuts at the next
semicolon and compares the front of what it has cut with the name. It decides which session a request belongs to.
-/

namespace ZeroTrust

/-- `cookies[i] == ' ' || cookies[i] == ';'`. -/
def isCookieSeparator (c : Byte) : Bool := c == 32 || c == 59

/-- The inner loop of `cookie_value`. -/
def skipSeparators (cookies : Bytes) (i : ℕ) : ℕ := i + ((cookies.drop i).takeWhile isCookieSeparator).length

/-- The body of `cookie_value`, with the name and its equals sign; it leaves with what is returned. -/
def cookieStep (cookies start : Bytes) (i : ℕ) : ℕ ⊕ Bytes :=
  if i < cookies.length then
    let i := skipSeparators cookies i
    let rest := cookies.drop i
    let stop := findByte 59 rest
    let kv := rest.take (stop.getD rest.length)
    if start.isPrefixOf kv then .inr (kv.drop start.length)
    else match stop with
      | none => .inr []
      | some n => .inl (i + n + 1)
  else .inr []

/-- The cursor moves. -/
theorem lt_of_cookieStep {cookies start : Bytes} {i i' : ℕ} (h : cookieStep cookies start i = .inl i') :
    i < cookies.length ∧ i < i' := by
  unfold cookieStep at h
  split at h
  · next hlt =>
    have hskip : i ≤ skipSeparators cookies i := Nat.le_add_right _ _
    dsimp only at h
    split at h
    · cases h
    · split at h
      · cases h
      · cases h
        exact ⟨hlt, by omega⟩
  · cases h

/-- The loop of `cookie_value`. -/
def cookieLoop (cookies start : Bytes) : Loop ℕ Bytes where
  step := cookieStep cookies start
  variant i := cookies.length - i
  decreases i i' h := by
    obtain ⟨hlt, hmoves⟩ := lt_of_cookieStep h
    omega

/-- `cookie_value`, for the `Cookie` header of a request. -/
def cookieValue (header : Option Bytes) (name : Bytes) : Bytes :=
  match header with
  | none => []
  | some cookies => (cookieLoop cookies (name ++ [61])).run 0

/-- `get_session`. -/
def AuthServer.requestSession (srv : AuthServer) (header : Option Bytes) : Option Session × AuthServer :=
  srv.getSession (cookieValue header (str "zt_session"))

/-- A pair of a `Cookie` header, with the blanks in front of it. -/
structure Cookie where
  blanks : ℕ
  name : Bytes
  value : Bytes
  name_plain : 61 ∉ name ∧ 59 ∉ name ∧ 32 ∉ name
  value_plain : 59 ∉ value

namespace Cookie

/-- The pair without its blanks. -/
def pair (cookie : Cookie) : Bytes := cookie.name ++ 61 :: cookie.value

/-- The pair behind its blanks. -/
def text (cookie : Cookie) : Bytes := List.replicate cookie.blanks 32 ++ cookie.pair

end Cookie

/-- A `Cookie` header. -/
def cookieHeader (cookies : List Cookie) : Bytes := [59].intercalate (cookies.map Cookie.text)

/-- The value of the first cookie with a name, empty where there is none. -/
def firstCookie (name : Bytes) (cookies : List Cookie) : Bytes :=
  ((cookies.find? fun cookie => cookie.name = name).map Cookie.value).getD []

section Pair

variable (cookie : Cookie) {name done tail : Bytes}

/-- A pair starts with no separator. -/
theorem Cookie.takeWhile_pair (rest : Bytes) : (cookie.pair ++ rest).takeWhile isCookieSeparator = [] := by
  obtain ⟨blanks, name, value, ⟨-, hsemicolon, hblank⟩, -⟩ := cookie
  cases name with
  | nil => rfl
  | cons c name =>
    have hc : isCookieSeparator c = false := by
      simp only [isCookieSeparator, Bool.or_eq_false_iff, beq_eq_false_iff_ne]
      exact ⟨(List.ne_of_not_mem_cons hblank).symm, (List.ne_of_not_mem_cons hsemicolon).symm⟩
    exact List.takeWhile_cons_of_neg (by simp [hc])

/-- A pair contains no semicolon. -/
theorem Cookie.semicolon_not_mem : 59 ∉ cookie.pair := by
  rw [pair, List.mem_append, List.mem_cons, not_or, not_or]
  exact ⟨cookie.name_plain.2.1, by decide, cookie.value_plain⟩

/-- A pair starts with a name and an equals sign exactly if this is its name. -/
theorem Cookie.isPrefixOf_pair (hname : 61 ∉ name) :
    (name ++ [61]).isPrefixOf cookie.pair = true ↔ cookie.name = name := by
  rw [List.isPrefixOf_iff_prefix]
  constructor
  · rintro ⟨rest, h⟩
    rw [List.append_assoc] at h
    exact (append_separator_inj hname cookie.name_plain.1 h).1.symm
  · rintro rfl
    exact ⟨cookie.value, by simp [pair]⟩

/-- The inner loop stops at the pair. -/
theorem skipSeparators_text : skipSeparators (done ++ (cookie.text ++ tail)) done.length =
    (done ++ List.replicate cookie.blanks 32).length := by
  have hblanks : ∀ c ∈ List.replicate cookie.blanks (32 : Byte), isCookieSeparator c = true := by
    intro c hc
    rw [(List.mem_replicate.mp hc).2]
    rfl
  rw [skipSeparators, List.drop_left, Cookie.text, List.append_assoc, List.takeWhile_append_of_pos hblanks,
    cookie.takeWhile_pair, List.append_nil, List.length_append]

/-- What the scanner does with a pair, once it is known where the pair ends. -/
theorem cookieStep_text (hname : 61 ∉ name) {stop : Option ℕ} (hstop : findByte 59 (cookie.pair ++ tail) = stop)
    (hcut : (cookie.pair ++ tail).take (stop.getD (cookie.pair ++ tail).length) = cookie.pair) :
    cookieStep (done ++ (cookie.text ++ tail)) (name ++ [61]) done.length =
      if cookie.name = name then .inr cookie.value
      else stop.elim (.inr []) fun n => .inl ((done ++ List.replicate cookie.blanks 32).length + n + 1) := by
  have hlt : done.length < (done ++ (cookie.text ++ tail)).length := by
    have hpositive : 0 < cookie.text.length := by
      simp only [Cookie.text, Cookie.pair, List.length_append, List.length_cons]
      omega
    rw [List.length_append, List.length_append]
    omega
  have hrest : (done ++ (cookie.text ++ tail)).drop (done ++ List.replicate cookie.blanks 32).length =
      cookie.pair ++ tail := by
    rw [Cookie.text, List.append_assoc, ← List.append_assoc done, List.drop_left]
  rw [cookieStep, if_pos hlt, skipSeparators_text]
  dsimp only
  rw [hrest, hstop, hcut]
  by_cases hown : cookie.name = name
  · have hvalue : cookie.pair.drop (name ++ [61]).length = cookie.value := by
      have hpair : cookie.pair = (name ++ [61]) ++ cookie.value := by simp [Cookie.pair, hown]
      rw [hpair, List.drop_left]
    rw [if_pos ((cookie.isPrefixOf_pair hname).mpr hown), if_pos hown, hvalue]
  · rw [if_neg fun h => hown ((cookie.isPrefixOf_pair hname).mp h), if_neg hown]
    cases stop <;> rfl

/-- What the scanner does with the last pair of a header. -/
theorem cookieStep_last (hname : 61 ∉ name) : cookieStep (done ++ cookie.text) (name ++ [61]) done.length =
    .inr (if cookie.name = name then cookie.value else []) := by
  have hstop : findByte 59 (cookie.pair ++ []) = none := by
    rw [List.append_nil]
    exact findByte_eq_none.mpr cookie.semicolon_not_mem
  have hstep := @cookieStep_text cookie name done [] hname none hstop (by simp)
  rw [List.append_nil] at hstep
  rw [hstep]
  split_ifs <;> rfl

/-- What the scanner does with a pair in front of another. -/
theorem cookieStep_next (hname : 61 ∉ name) : cookieStep (done ++ (cookie.text ++ 59 :: tail)) (name ++ [61])
    done.length = if cookie.name = name then .inr cookie.value else .inl (done ++ cookie.text ++ [59]).length := by
  have hstop : findByte 59 (cookie.pair ++ 59 :: tail) = some cookie.pair.length :=
    findByte_append_cons cookie.semicolon_not_mem tail
  have hcursor : (done ++ List.replicate cookie.blanks 32).length + cookie.pair.length + 1 =
      (done ++ cookie.text ++ [59]).length := by
    simp [Cookie.text, Nat.add_assoc]
  rw [cookieStep_text cookie hname hstop (by simp), Option.elim_some, hcursor]

end Pair

/-- Cookies are separated by semicolons. -/
theorem cookieHeader_cons (cookie next : Cookie) (cookies : List Cookie) :
    cookieHeader (cookie :: next :: cookies) = cookie.text ++ 59 :: cookieHeader (next :: cookies) := by
  simp [cookieHeader]

/-- The first cookie decides, if it has the name. -/
theorem firstCookie_cons (name : Bytes) (cookie : Cookie) (cookies : List Cookie) :
    firstCookie name (cookie :: cookies) = if cookie.name = name then cookie.value else firstCookie name cookies := by
  simp only [firstCookie, getD_map_find?_cons, decide_eq_true_eq]

/-- The scanner goes through the pairs one by one. -/
theorem cookieLoop_run {name : Bytes} (hname : 61 ∉ name) (cookies : List Cookie) (done : Bytes) :
    (cookieLoop (done ++ cookieHeader cookies) (name ++ [61])).run done.length = firstCookie name cookies := by
  induction cookies generalizing done with
  | nil =>
    apply Loop.run_of_exit
    exact if_neg (by simp [cookieHeader])
  | cons cookie cookies ih =>
    rw [firstCookie_cons]
    cases cookies with
    | nil =>
      apply Loop.run_of_exit
      have hheader : cookieHeader [cookie] = cookie.text := by simp [cookieHeader]
      rw [hheader]
      exact cookieStep_last cookie hname
    | cons next cookies =>
      rw [cookieHeader_cons]
      have hstep := @cookieStep_next cookie name done (cookieHeader (next :: cookies)) hname
      by_cases hown : cookie.name = name
      · rw [if_pos hown] at hstep ⊢
        exact Loop.run_of_exit _ hstep
      · rw [if_neg hown] at hstep ⊢
        rw [Loop.run_of_continue _ hstep, ← ih (done ++ cookie.text ++ [59])]
        simp

/-- Cookies of other names do not matter. -/
theorem firstCookie_filter (name : Bytes) (cookies : List Cookie) :
    firstCookie name (cookies.filter fun cookie => cookie.name = name) = firstCookie name cookies := by
  unfold firstCookie
  rw [List.find?_filter]
  simp

/-- The scanner ends within one step for each byte and one more. It returns the value of the first cookie with the
name, the empty string if there is none, and takes nothing from cookies of other names. -/
theorem cookieValue_cookieHeader {name : Bytes} (hname : 61 ∉ name) (cookies : List Cookie) :
    iterate (cookieStep (cookieHeader cookies) (name ++ [61])) ((cookieHeader cookies).length + 1) 0 =
        some (cookieValue (some (cookieHeader cookies)) name) ∧
      cookieValue (some (cookieHeader cookies)) name = firstCookie name cookies ∧
      cookieValue (some (cookieHeader cookies)) name =
        cookieValue (some (cookieHeader (cookies.filter fun cookie => cookie.name = name))) name := by
  have hvalue : ∀ cookies, cookieValue (some (cookieHeader cookies)) name = firstCookie name cookies :=
    fun cookies => cookieLoop_run hname cookies []
  refine ⟨?_, hvalue cookies, ?_⟩
  · exact iterate_eq_run (cookieLoop (cookieHeader cookies) (name ++ [61])) (Nat.lt_succ_self _)
  · rw [hvalue, hvalue, firstCookie_filter]

/-- Cookies whose names contain, extend and end the name of the session cookie, with the session cookie behind. -/
def neighbouringCookies : List Cookie :=
  [⟨0, str "x_zt_session_x", str "1", by decide, by decide⟩, ⟨1, str "zt_session2", str "2", by decide, by decide⟩,
    ⟨3, str "session", str "zt_session=3", by decide, by decide⟩,
    ⟨0, str "zt_session", str "4=4", by decide, by decide⟩]

/-- Cookies with similar names and blanks around the one that is looked for. -/
theorem cookieValue_neighbouringCookies :
    cookieValue (some (str "x_zt_session_x=1; zt_session2=2;   session=zt_session=3;zt_session=4=4"))
      (str "zt_session") = str "4=4" := by
  have hname : 61 ∉ str "zt_session" := by decide
  exact (cookieValue_cookieHeader hname neighbouringCookies).2.1

/-- A request belongs to the session of its first cookie of that name. -/
theorem requestSession_cookieHeader (srv : AuthServer) (cookies : List Cookie) :
    srv.requestSession (some (cookieHeader cookies)) =
      srv.getSession (firstCookie (str "zt_session") cookies) := by
  have hname : 61 ∉ str "zt_session" := by decide
  have hvalue := cookieLoop_run hname cookies []
  exact congrArg srv.getSession hvalue

end ZeroTrust
