import ZeroTrust.Ztl.CallCount

/-!
# Scopes

An environment chain is numbered from the innermost scope to the globals. A block leaves every
environment of its chain with the names that it had, and changes a binding only by an assignment that
finds the name there. Trailing blocks see the globals alone.
-/

namespace ZeroTrust.Ztl

/-- The environments from the innermost scope to the globals. -/
def Machine.chain (m : Machine) : List Env := m.locals ++ [m.globals]

/-- What a name is bound to in an environment of the chain. -/
def Machine.binding (m : Machine) (i : ℕ) (name : Bytes) : Option Value := m.chain[i]?.bind fun env => env name

/-- An assignment in a program; in a trailing block it sees the globals alone. -/
structure Assignment where
  name : Bytes
  rooted : Bool := false
deriving DecidableEq

/-- The assignment inside a trailing block. -/
def Assignment.atRoot (a : Assignment) : Assignment := { a with rooted := true }

/-- The environment in which an assignment finds its name. -/
def Machine.resolve (m : Machine) (a : Assignment) : Option ℕ :=
  if a.rooted then
    if (m.globals a.name).isSome then some m.locals.length else none
  else m.chain.findIdx? fun env => (env a.name).isSome

/-- The chain of scopes is the locals and the globals. -/
theorem Machine.length_chain (m : Machine) : m.chain.length = m.locals.length + 1 := by simp [chain]

/-- The globals are the last environment. -/
theorem Machine.binding_globals (m : Machine) (name : Bytes) : m.binding m.locals.length name = m.globals name := by
  simp [binding, chain]

/-- A lookup takes the first environment with the name. -/
theorem lookup_eq_findSome (m : Machine) (name : Bytes) :
    lookup m.globals m.locals name = m.chain.findSome? fun env => env name := by
  unfold Machine.chain
  induction m.locals with
  | nil => simp [lookup]
  | cons scope scopes ih =>
    rw [lookup, ih, List.cons_append, List.findSome?_cons]
    cases scope name <;> rfl

/-- A lookup finds nothing when no environment has the name. -/
theorem lookup_eq_none_iff (m : Machine) (name : Bytes) :
    lookup m.globals m.locals name = none ↔ ∀ i, (m.binding i name).isSome = false := by
  rw [lookup_eq_findSome, List.findSome?_eq_none_iff]
  constructor
  · intro h i
    unfold Machine.binding
    cases hi : m.chain[i]? with
    | none => rfl
    | some env => simp [h env (List.mem_of_getElem? hi)]
  · intro h env henv
    obtain ⟨i, hi⟩ := List.getElem?_of_mem henv
    have hnone := h i
    rw [Machine.binding, hi] at hnone
    simpa using hnone

/-- The environment that an assignment finds has the name, and none before it. -/
theorem Machine.resolve_eq_some_iff (m : Machine) (a : Assignment) (i : ℕ) :
    m.resolve a = some i ↔ (m.binding i a.name).isSome ∧
      if a.rooted then i = m.locals.length else ∀ j < i, (m.binding j a.name).isSome = false := by
  unfold resolve
  split
  · constructor
    · intro h
      obtain ⟨hglobals, hi⟩ := Option.ite_none_right_eq_some.mp h
      cases hi
      exact ⟨by rwa [binding_globals], rfl⟩
    · rintro ⟨hsome, rfl⟩
      rw [binding_globals] at hsome
      rw [if_pos hsome]
  · have hsome : ∀ j env, m.chain[j]? = some env → m.binding j a.name = env a.name := by
      intro j env h
      rw [binding, h]
      rfl
    rw [List.findIdx?_eq_some_iff_getElem]
    constructor
    · rintro ⟨hi, hfound, hbefore⟩
      refine ⟨?_, fun j hj => ?_⟩
      · rwa [hsome i _ (List.getElem?_eq_getElem hi)]
      · rw [hsome j _ (List.getElem?_eq_getElem (hj.trans hi))]
        simpa using hbefore j hj
    · rintro ⟨hfound, hbefore⟩
      have hi : i < m.chain.length := by
        by_contra hlt
        rw [binding, List.getElem?_eq_none (Nat.le_of_not_lt hlt)] at hfound
        exact Bool.noConfusion hfound
      refine ⟨hi, ?_, fun j hj => ?_⟩
      · rwa [hsome i _ (List.getElem?_eq_getElem hi)] at hfound
      · have hj' := hbefore j hj
        rw [hsome j _ (List.getElem?_eq_getElem (hj.trans hi))] at hj'
        simpa using hj'

/-- A name that an assignment does not find is bound nowhere. -/
theorem Machine.binding_of_resolve_eq_none {m : Machine} {name : Bytes} (h : m.resolve ⟨name, false⟩ = none) (i : ℕ) :
    m.binding i name = none := by
  have hnone := List.findIdx?_eq_none_iff.mp h
  unfold binding
  cases hi : m.chain[i]? with
  | none => rfl
  | some env => simpa using hnone env (List.mem_of_getElem? hi)

/-- The scope that an assignment changes, if one has the name. -/
theorem assignLocals_eq (name : Bytes) (v : Value) (scopes : List Env) :
    assignLocals name v scopes =
      (scopes.findIdx? fun env => (env name).isSome).map fun i => scopes.modify i (·.set name v) := by
  induction scopes with
  | nil => rfl
  | cons scope scopes ih =>
    rw [assignLocals, List.findIdx?_cons, ih]
    split
    · rfl
    · rw [Option.map_map, Option.map_map]
      rfl

/-- An assignment takes the first environment with the name, else the innermost one. -/
theorem Machine.chain_assign (m : Machine) (name : Bytes) (v : Value) :
    (m.assign name v).chain = m.chain.modify ((m.resolve ⟨name, false⟩).getD 0) (·.set name v) := by
  have hmodify : ∀ (i : ℕ) (xs : List Env) (env : Env), i < xs.length →
      (xs ++ [env]).modify i (·.set name v) = xs.modify i (·.set name v) ++ [env] := by
    intro i xs env hi
    rw [List.modify_eq_take_cons_drop (by simp; omega), List.modify_eq_take_cons_drop hi]
    simp [List.take_append_of_le_length hi.le, List.drop_append_of_le_length (Nat.succ_le_of_lt hi), hi]
  have hlast : ∀ (xs : List Env) (env : Env),
      (xs ++ [env]).modify xs.length (·.set name v) = xs ++ [env.set name v] := by
    intro xs env
    rw [List.modify_eq_take_cons_drop (by simp)]
    simp
  have hresolve : m.resolve ⟨name, false⟩ = m.chain.findIdx? fun env => (env name).isSome := rfl
  rw [hresolve, Machine.assign, assignLocals_eq]
  unfold Machine.chain
  rw [List.findIdx?_append]
  cases hfind : m.locals.findIdx? fun env => (env name).isSome with
  | some i =>
    have hi : i < m.locals.length := (List.findIdx?_eq_some_iff_findIdx_eq.mp hfind).1
    simp [hmodify i m.locals m.globals hi]
  | none =>
    by_cases hglobals : (m.globals name).isSome
    · simp [hglobals, hlast]
    · cases hlocals : m.locals with
      | nil => simp [hglobals, Machine.define, hlocals]
      | cons scope scopes => simp [hglobals, Machine.define, hlocals]

/-- An assignment opens no scope. -/
theorem Machine.length_locals_assign (m : Machine) (name : Bytes) (v : Value) :
    (m.assign name v).locals.length = m.locals.length := by
  have hlength := congrArg List.length (m.chain_assign name v)
  rw [List.length_modify, length_chain, length_chain] at hlength
  omega

/-- What an assignment binds. -/
theorem Machine.binding_assign (m : Machine) (name : Bytes) (v : Value) (i : ℕ) (x : Bytes) :
    (m.assign name v).binding i x =
      if x = name ∧ i = (m.resolve ⟨name, false⟩).getD 0 ∧ i < m.chain.length then some v else m.binding i x := by
  unfold Machine.binding
  rw [m.chain_assign, List.getElem?_modify]
  by_cases hi : i < m.chain.length
  · rw [List.getElem?_eq_getElem hi]
    by_cases hresolve : (m.resolve ⟨name, false⟩).getD 0 = i
    · by_cases hx : x = name
      · simp [hresolve, hx, hi, Env.set]
      · simp [hresolve, hx, Env.set]
    · simp [hresolve, Ne.symm hresolve]
  · rw [List.getElem?_eq_none (Nat.le_of_not_lt hi)]
    simp [hi]

/-- The environments keep their names, and a binding changes only by an assignment that finds it. -/
structure Machine.Framed (as : List Assignment) (m m' : Machine) : Prop where
  length : m'.locals.length = m.locals.length
  names : ∀ i name, (m'.binding i name).isSome = (m.binding i name).isSome
  changes : ∀ i name, m'.binding i name ≠ m.binding i name → ∃ a ∈ as, a.name = name ∧ m.resolve a = some i

/-- The same seen from inside a block: the innermost environment may gain names. -/
structure Machine.FramedInside (as : List Assignment) (m m' : Machine) : Prop where
  length : m'.locals.length = m.locals.length
  names : ∀ i name, i ≠ 0 → (m'.binding i name).isSome = (m.binding i name).isSome
  grows : ∀ i name, (m.binding i name).isSome → (m'.binding i name).isSome
  changes : ∀ i name, (m.binding i name).isSome → m'.binding i name ≠ m.binding i name →
    ∃ a ∈ as, a.name = name ∧ m.resolve a = some i

section Frames

variable {as : List Assignment}

/-- A binding that changes without coming or going was there. -/
theorem isSome_of_ne {o o' : Option Value} (hsame : o'.isSome = o.isSome) (hne : o' ≠ o) : o.isSome := by
  cases o with
  | some v => rfl
  | none => exact (hne (by simpa using hsame)).elim

/-- Environments that stay as they are. -/
theorem Machine.framed_of_eq {m m' : Machine} (hglobals : m'.globals = m.globals) (hlocals : m'.locals = m.locals) :
    m.Framed as m' := by
  have hbinding : ∀ i name, m'.binding i name = m.binding i name := by
    intro i name
    rw [binding, binding, chain, chain, hglobals, hlocals]
  exact ⟨congrArg _ hlocals, fun i name => by rw [hbinding], fun i name h => (h (hbinding i name)).elim⟩

/-- Doing nothing keeps the frame. -/
theorem Machine.Framed.refl (m : Machine) : m.Framed as m := framed_of_eq rfl rfl

/-- What keeps the frame keeps it from inside. -/
theorem Machine.Framed.inside {m m' : Machine} (h : m.Framed as m') : m.FramedInside as m' where
  length := h.length
  names i name _ := h.names i name
  grows i name hsome := by rwa [h.names]
  changes i name _ hne := h.changes i name hne

/-- What an assignment finds later, it finds before. -/
theorem Machine.FramedInside.resolve {m m' : Machine} (h : m.FramedInside as m') {a : Assignment} {i : ℕ}
    (hsome : (m.binding i a.name).isSome) (hresolve : m'.resolve a = some i) : m.resolve a = some i := by
  rw [resolve_eq_some_iff] at hresolve ⊢
  refine ⟨hsome, ?_⟩
  split
  · next hrooted =>
    rw [if_pos hrooted, h.length] at hresolve
    exact hresolve.2
  · next hrooted =>
    rw [if_neg hrooted] at hresolve
    intro j hj
    have hbefore := hresolve.2 j hj
    by_contra hdefined
    rw [Bool.not_eq_false] at hdefined
    rw [h.grows j a.name hdefined] at hbefore
    exact Bool.noConfusion hbefore

/-- What keeps the frame from inside does so in a row. -/
theorem Machine.FramedInside.trans (m m' m'' : Machine) (h : m.FramedInside as m') (h' : m'.FramedInside as m'') :
    m.FramedInside as m'' where
  length := h'.length.trans h.length
  names i name hi := (h'.names i name hi).trans (h.names i name hi)
  grows i name hsome := h'.grows i name (h.grows i name hsome)
  changes i name hsome hne := by
    by_cases hfirst : m'.binding i name = m.binding i name
    · obtain ⟨a, ha, rfl, hresolve⟩ := h'.changes i name (h.grows i name hsome) (hfirst ▸ hne)
      exact ⟨a, ha, rfl, h.resolve hsome hresolve⟩
    · exact h.changes i name hsome hfirst

/-- What keeps the frame does so in a row. -/
theorem Machine.Framed.trans (m m' m'' : Machine) (h : m.Framed as m') (h' : m'.Framed as m'') : m.Framed as m'' where
  length := h'.length.trans h.length
  names i name := (h'.names i name).trans (h.names i name)
  changes i name hne := by
    have hdefined := isSome_of_ne ((h'.names i name).trans (h.names i name)) hne
    exact (FramedInside.trans _ _ _ h.inside h'.inside).changes i name hdefined hne

/-- More assignments explain as much. -/
theorem Machine.Framed.mono {bs : List Assignment} {m m' : Machine} (h : m.Framed as m') (hsub : as ⊆ bs) :
    m.Framed bs m' where
  length := h.length
  names := h.names
  changes i name hne := by
    obtain ⟨a, ha, hname, hresolve⟩ := h.changes i name hne
    exact ⟨a, hsub ha, hname, hresolve⟩

/-- An assignment defines its name in the innermost environment, or changes the binding that it finds. -/
theorem Machine.framedInside_assign (m : Machine) {name : Bytes} (v : Value) (h : ⟨name, false⟩ ∈ as) :
    m.FramedInside as (m.assign name v) where
  length := m.length_locals_assign name v
  names i x hi := by
    rw [binding_assign]
    split
    · next hfound =>
      obtain ⟨rfl, hresolve, -⟩ := hfound
      cases hr : m.resolve ⟨x, false⟩ with
      | none => rw [hr] at hresolve; exact (hi hresolve).elim
      | some j =>
        rw [hr] at hresolve
        cases hresolve
        exact ((m.resolve_eq_some_iff _ _).mp hr).1.symm
    · rfl
  grows i x hsome := by
    rw [binding_assign]
    split
    · rfl
    · exact hsome
  changes i x hsome hne := by
    rw [binding_assign] at hne
    split at hne
    · next hfound =>
      obtain ⟨rfl, hresolve, -⟩ := hfound
      cases hr : m.resolve ⟨x, false⟩ with
      | none => rw [binding_of_resolve_eq_none hr] at hsome; exact Bool.noConfusion hsome
      | some j =>
        rw [hr] at hresolve
        cases hresolve
        exact ⟨_, h, rfl, hr⟩
    · exact (hne rfl).elim

/-- What happens in a new scope is framed outside it. -/
theorem Machine.FramedInside.pop {m m' : Machine} (h : m.push.FramedInside as m') : m.Framed as m'.pop := by
  have hlength : m'.locals.length = m.locals.length + 1 := h.length
  have hchain : m'.pop.chain = m'.chain.tail := by
    rw [chain, chain, List.tail_append_of_ne_nil]
    · rfl
    · intro hnil
      rw [hnil] at hlength
      exact Nat.noConfusion hlength
  have hinner : ∀ i name, m'.pop.binding i name = m'.binding (i + 1) name := by
    intro i name
    rw [binding, binding, hchain, List.getElem?_tail]
  have houter : ∀ i name, m.push.binding (i + 1) name = m.binding i name := fun i name => rfl
  have hnames : ∀ i name, (m'.pop.binding i name).isSome = (m.binding i name).isSome := by
    intro i name
    rw [hinner, h.names (i + 1) name (Nat.succ_ne_zero i), houter]
  refine ⟨?_, hnames, fun i name hne => ?_⟩
  · rw [Machine.pop, List.length_tail, hlength, Nat.add_sub_cancel]
  · have hdefined := isSome_of_ne (hnames i name) hne
    rw [hinner, ← houter] at hne
    obtain ⟨a, ha, rfl, hresolve⟩ := h.changes (i + 1) name (by rwa [houter]) hne
    refine ⟨a, ha, rfl, ?_⟩
    rw [resolve_eq_some_iff] at hresolve ⊢
    refine ⟨hdefined, ?_⟩
    split
    · next hrooted =>
      rw [if_pos hrooted] at hresolve
      exact Nat.succ.inj hresolve.2
    · next hrooted =>
      rw [if_neg hrooted] at hresolve
      exact fun j hj => hresolve.2 (j + 1) (Nat.succ_lt_succ hj)

/-- What happens directly above the globals is framed outside it; it sees the globals alone. -/
theorem Machine.FramedInside.restore {m m' : Machine} (h : m.enterGlobal.FramedInside as m') :
    m.Framed (as.map Assignment.atRoot) (m.restore m') := by
  have hlength : m'.locals.length = 1 := h.length
  have hglobals : ∀ name, m'.binding 1 name = m'.globals name := by
    intro name
    rw [← m'.binding_globals, hlength]
  have hnames : ∀ name, (m'.globals name).isSome = (m.globals name).isSome := by
    intro name
    rw [← hglobals, h.names 1 name Nat.one_ne_zero]
    rfl
  have hbinding : ∀ i name, i ≠ m.locals.length → (m.restore m').binding i name = m.binding i name := by
    intro i name hi
    change ((m.locals ++ [m'.globals])[i]?).bind _ = ((m.locals ++ [m.globals])[i]?).bind _
    rcases Nat.lt_or_gt_of_ne hi with hi | hi
    · rw [List.getElem?_append_left hi, List.getElem?_append_left hi]
    · rw [List.getElem?_eq_none (by simp; omega), List.getElem?_eq_none (by simp; omega)]
  refine ⟨rfl, fun i name => ?_, fun i name hne => ?_⟩
  · by_cases hi : i = m.locals.length
    · subst hi
      rw [binding_globals]
      exact ((m.restore m').binding_globals name ▸ hnames name :)
    · rw [hbinding i name hi]
  · by_cases hi : i = m.locals.length
    · subst hi
      have hne' : m'.globals name ≠ m.globals name := by
        rw [m.binding_globals] at hne
        exact fun heq => hne (((m.restore m').binding_globals name).trans heq)
      have hdefined := isSome_of_ne (hnames name) hne'
      obtain ⟨a, ha, rfl, -⟩ := h.changes 1 name hdefined (by rw [hglobals]; exact hne')
      refine ⟨a.atRoot, List.mem_map_of_mem ha, rfl, ?_⟩
      exact if_pos hdefined
    · exact (hne (hbinding i name hi)).elim

end Frames

/-- A call of `finding` leaves the environments alone. -/
theorem findingFn_environments (w : World) (run : ℕ) (ctx : CallContext) (m : Machine) :
    (findingFn w run ctx m).state.globals = m.globals ∧ (findingFn w run ctx m).state.locals = m.locals := by
  cases hf : findingOf (m.store.runs run) m.store ctx with
  | error e =>
    rw [findingFn, readStore, Effect.gets_bind_run, hf, orThrow_error_bind]
    exact ⟨rfl, rfl⟩
  | ok f =>
    rw [findingFn_run w run hf]
    exact ⟨rfl, rfl⟩

mutual

/-- The assignments in an expression: those in its trailing blocks. -/
def Expr.assignments : Expr → List Assignment
  | .null _ | .bool _ _ | .number _ _ | .string _ _ | .ident _ _ | .scoped _ _ _ => []
  | .member _ object _ => object.assignments
  | .call _ callee args block => argsAssignments args ++ (callee.assignments ++ blockAssignments block)
  | .unary _ _ operand => operand.assignments
  | .binary _ _ lhs rhs => lhs.assignments ++ rhs.assignments

/-- The assignments in arguments. -/
def argsAssignments : List CallArg → List Assignment
  | [] => []
  | .mk _ value :: args => value.assignments ++ argsAssignments args

/-- The assignments in a trailing block. -/
def blockAssignments : Option (List Stmt) → List Assignment
  | none => []
  | some body => (stmtsAssignments body).map Assignment.atRoot

/-- The assignments in a returned value. -/
def valueAssignments : Option Expr → List Assignment
  | none => []
  | some value => value.assignments

/-- The assignments in a statement, at any depth. -/
def Stmt.assignments : Stmt → List Assignment
  | .includeModule _ _ => []
  | .expr _ value => value.assignments
  | .assign _ targetName value => value.assignments ++ [⟨targetName, false⟩]
  | .ifThen _ condition thenBranch elseBranch =>
    condition.assignments ++ (stmtsAssignments thenBranch ++ stmtsAssignments elseBranch)
  | .ret _ value => valueAssignments value

/-- The assignments in statements. -/
def stmtsAssignments : List Stmt → List Assignment
  | [] => []
  | stmt :: stmts => stmt.assignments ++ stmtsAssignments stmts

end

/-- However a computation ends, the environments are framed. -/
abbrev Framing {α : Type} (as : List Assignment) (p : Eval α) : Prop :=
  Effect.Spec (Machine.Framed as) (fun _ => True) (fun _ => True) p

/-- However a computation ends, the environments are framed but for the innermost one. -/
abbrev FramingInside {α : Type} (as : List Assignment) (p : Eval α) : Prop :=
  Effect.Spec (Machine.FramedInside as) (fun _ => True) (fun _ => True) p

section Rules

variable {w : World} {as : List Assignment}

/-- A computation that keeps the frame keeps it from inside. -/
theorem Framing.inside {α : Type} {p : Eval α} (h : Framing as p) : FramingInside as p :=
  h.mono (fun _ _ hm => hm.inside) (fun _ hx => hx) fun _ hf => hf

/-- A value keeps the frame. -/
theorem framing_pure {α : Type} (a : α) : Framing as (pure a) := Effect.spec_pure Machine.Framed.refl a

/-- An exception keeps the frame. -/
theorem framing_throw {α : Type} (x : Exn) : Framing as (Effect.throw x : Eval α) :=
  Effect.spec_throw Machine.Framed.refl trivial

/-- Computations that keep the frame do so in a row. -/
theorem Framing.bind {α β : Type} {p : Eval α} {k : α → Eval β} (hp : Framing as p) (hk : ∀ x, Framing as (k x)) :
    Framing as (p >>= k) := Effect.Spec.bind Machine.Framed.trans hp hk

/-- Computations that keep the frame from inside do so in a row. -/
theorem FramingInside.bind {α β : Type} {p : Eval α} {k : α → Eval β} (hp : FramingInside as p)
    (hk : ∀ x, FramingInside as (k x)) : FramingInside as (p >>= k) :=
  Effect.Spec.bind Machine.FramedInside.trans hp hk

/-- A computation that changes the store alone. -/
theorem framing_quiet {α : Type} {p : Eval α} (h : Quietly (fun _ => True) p) : Framing as p :=
  h.mono (fun _ _ hm => Machine.framed_of_eq hm.globals hm.locals) (fun _ _ => trivial) fun _ hf => hf

/-- A block is framed outside. -/
theorem FramingInside.inBlockScope {p : Eval Unit} (h : FramingInside as p) : Framing as (inBlockScope p) :=
  h.within fun _ _ hm => hm.pop

/-- So is a block above the globals. -/
theorem FramingInside.inGlobalScope {p : Eval Unit} (h : FramingInside as p) :
    Framing (as.map Assignment.atRoot) (inGlobalScope p) := h.within fun _ _ hm => hm.restore

/-- `plugin.run` is framed like its body. -/
theorem framing_pluginRun {block : Option (Eval Unit)} (run : ℕ) (ctx : CallContext)
    (hblock : ∀ body ∈ block, Framing as (inGlobalScope body)) : Framing as (pluginRun run ctx block) := by
  cases block with
  | none => exact framing_throw _
  | some body =>
    apply Framing.bind (framing_quiet (quietly_readRun run _))
    intro runs
    cases runs with
    | false => exact framing_pure _
    | true =>
      apply Framing.bind _ fun _ => framing_pure _
      apply Effect.Spec.tryCatch Machine.Framed.trans (hblock body rfl)
      intro x _
      cases x with
      | returned v => exact framing_pure _
      | runtimeError e => exact framing_throw _

/-- A call changes the store, and the environments by its block. -/
theorem framing_invoke (fn : NativeFn) (ctx : CallContext) {block : Option (Eval Unit)}
    (hblock : ∀ body ∈ block, Framing as (inGlobalScope body)) : Framing as (invoke w fn ctx block) := by
  have hrecord : Framing as (Effect.modify (·.record fn ctx)) :=
    Effect.spec_modify fun m => Machine.framed_of_eq rfl rfl
  apply hrecord.bind
  intro _
  by_cases hquiet : fn.op.IsQuiet
  · apply framing_quiet
    exact (quietly_callNative w hquiet ctx block).mono (fun _ _ hm => hm) (fun _ hx => hx) fun _ _ => trivial
  · cases hop : fn.op with
    | pluginRun run => exact framing_pluginRun run ctx hblock
    | finding run =>
      apply Effect.spec_of_state
      intro m
      obtain ⟨hglobals, hlocals⟩ := findingFn_environments w run ctx m
      exact Machine.framed_of_eq hglobals hlocals
    | _ => rw [hop] at hquiet; exact (hquiet trivial).elim

/-- A method call keeps the frame when its block does. -/
theorem framing_invokeMethod (receiver : Value) (method : Bytes) (args : Arguments) {block : Option (Eval Unit)}
    (pos : Pos) (hblock : ∀ body ∈ block, Framing as (inGlobalScope body)) :
    Framing as (invokeMethod w receiver method args block pos) := by
  cases receiver with
  | string s => exact framing_quiet (quietly_orThrow _)
  | object address =>
    apply Framing.bind (framing_quiet (quietly_readStore _))
    intro o
    split
    · exact framing_invoke _ _ hblock
    · exact framing_throw _
  | _ => exact framing_throw _

/-- A function call keeps the frame when its block does. -/
theorem framing_invokeFunction (callee : Value) (args : Arguments) {block : Option (Eval Unit)}
    (pos : Pos) (hblock : ∀ body ∈ block, Framing as (inGlobalScope body)) :
    Framing as (invokeFunction w callee args block pos) := by
  cases callee with
  | function fn => exact framing_invoke _ _ hblock
  | _ => exact framing_throw _

end Rules

section Programs

variable (w : World)

mutual

/-- An expression is framed by its assignments. -/
theorem framing_evalExpr (as : List Assignment) : ∀ e : Expr, e.assignments ⊆ as → Framing as (evalExpr w e)
  | .null _, _ => framing_pure _
  | .bool _ _, _ => framing_pure _
  | .number _ _, _ => framing_pure _
  | .string _ _, _ => framing_pure _
  | .ident _ _, _ => framing_quiet (quietly_readVariable _ _ _)
  | .scoped _ _ _, _ => framing_quiet (quietly_readVariable _ _ _)
  | .member _ object _, h => (framing_evalExpr as object h).bind fun _ => framing_quiet (quietly_memberOf _ _ _)
  | .call pos callee args block, h => by
    obtain ⟨hargs, hrest⟩ := List.append_subset.mp h
    obtain ⟨hcallee, hblock⟩ := List.append_subset.mp hrest
    have hplain := (framing_evalArgs as args {} hargs).bind fun done => (framing_evalExpr as callee hcallee).bind
      fun callee => framing_invokeFunction (w := w) callee done pos (framing_evalBlock as block hblock)
    cases callee with
    | member _ object method =>
      exact (framing_evalArgs as args {} hargs).bind fun done => (framing_evalExpr as object hcallee).bind
        fun receiver => framing_invokeMethod receiver method done pos (framing_evalBlock as block hblock)
    | _ => exact hplain
  | .unary _ _ operand, h => (framing_evalExpr as operand h).bind fun _ => framing_quiet (quietly_orThrow _)
  | .binary _ op lhs rhs, h => by
    obtain ⟨hlhs, hrhs⟩ := List.append_subset.mp h
    have hr := framing_evalExpr as rhs hrhs
    apply (framing_evalExpr as lhs hlhs).bind
    intro l
    cases op with
    | and =>
      by_cases hl : isTruthy l
      · simp only [hl]
        exact hr
      · simp only [hl]
        exact framing_pure l
    | or =>
      by_cases hl : isTruthy l
      · simp only [hl]
        exact framing_pure l
      · simp only [hl]
        exact hr
    | _ => exact hr.bind fun _ => (framing_quiet (quietly_readStore _)).bind fun _ => framing_quiet (quietly_orThrow _)

/-- Arguments are framed by their assignments. -/
theorem framing_evalArgs (as : List Assignment) : ∀ (args : List CallArg) (done : Arguments),
    argsAssignments args ⊆ as → Framing as (evalArgs w args done)
  | [], _, _ => framing_pure _
  | .mk _ value :: args, _, h =>
    (framing_evalExpr as value (List.append_subset.mp h).1).bind fun _ =>
      framing_evalArgs as args _ (List.append_subset.mp h).2

/-- A trailing block is framed by its assignments, as the globals see them. -/
theorem framing_evalBlock (as : List Assignment) : ∀ block : Option (List Stmt), blockAssignments block ⊆ as →
    ∀ body ∈ evalBlock w block, Framing as (inGlobalScope body)
  | none, _, _, hbody => nomatch hbody
  | some stmts, h, _, hbody => by
    cases hbody
    exact (framing_execStmts _ stmts (List.Subset.refl _)).inGlobalScope.mono (fun _ _ hm => hm.mono h)
      (fun _ hx => hx) fun _ hf => hf

/-- A statement is framed by its assignments, but for the innermost environment. -/
theorem framing_execStmt (as : List Assignment) : ∀ s : Stmt, s.assignments ⊆ as → FramingInside as (execStmt w s)
  | .includeModule _ _, _ => (framing_pure _).inside
  | .expr _ value, h => (framing_evalExpr as value h).inside.bind fun _ => (framing_pure _).inside
  | .assign _ name value, h => by
    obtain ⟨hvalue, hname⟩ := List.append_subset.mp h
    apply (framing_evalExpr as value hvalue).inside.bind
    intro v
    exact Effect.spec_modify fun m => m.framedInside_assign v (hname (List.mem_singleton_self _))
  | .ifThen _ condition thenBranch elseBranch, h => by
    obtain ⟨hcondition, hrest⟩ := List.append_subset.mp h
    obtain ⟨hthen, helse⟩ := List.append_subset.mp hrest
    have hfirst := framing_execStmts as thenBranch hthen
    have hsecond := framing_execStmts as elseBranch helse
    apply (framing_evalExpr as condition hcondition).inside.bind
    intro cond
    split
    · exact hfirst.inBlockScope.inside
    · split
      · exact (framing_pure _).inside
      · exact hsecond.inBlockScope.inside
  | .ret _ value, h => (framing_evalReturnValue as value h).inside.bind fun _ => (framing_throw _).inside

/-- A returned value is framed by its assignments. -/
theorem framing_evalReturnValue (as : List Assignment) : ∀ value : Option Expr, valueAssignments value ⊆ as →
    Framing as (evalReturnValue w value)
  | none, _ => framing_pure _
  | some value, h => framing_evalExpr as value h

/-- Statements are framed by their assignments, but for the innermost environment. -/
theorem framing_execStmts (as : List Assignment) : ∀ stmts : List Stmt, stmtsAssignments stmts ⊆ as →
    FramingInside as (execStmts w stmts)
  | [], _ => (framing_pure _).inside
  | s :: stmts, h =>
    (framing_execStmt as s (List.append_subset.mp h).1).bind fun _ =>
      framing_execStmts as stmts (List.append_subset.mp h).2

end

/-- What was not visible before a framed computation is not visible after it. -/
theorem Machine.Framed.lookup_eq_none {as : List Assignment} {m m' : Machine} (h : m.Framed as m') (name : Bytes)
    (hnone : lookup m.globals m.locals name = none) : lookup m'.globals m'.locals name = none := by
  rw [lookup_eq_none_iff] at hnone ⊢
  intro i
  rw [h.names i name, hnone i]

/-- However a block ends, its environments have the names that they had, a binding changed only if the
block contains an assignment that finds it, and nothing new is visible; so for the body of `plugin.run`,
which sees the globals alone. -/
theorem block_framed (body : List Stmt) (m : Machine) :
    (m.Framed (stmtsAssignments body) (inBlockScope (execStmts w body) m).state ∧
      ∀ name, lookup m.globals m.locals name = none →
        lookup (inBlockScope (execStmts w body) m).state.globals
          (inBlockScope (execStmts w body) m).state.locals name = none) ∧
    ∀ (run : ℕ) (ctx : CallContext),
      m.Framed ((stmtsAssignments body).map Assignment.atRoot) (pluginRun run ctx (some (execStmts w body)) m).state ∧
      ∀ name, lookup m.globals m.locals name = none →
        lookup (pluginRun run ctx (some (execStmts w body)) m).state.globals
          (pluginRun run ctx (some (execStmts w body)) m).state.locals name = none := by
  have hbody := framing_execStmts w (stmtsAssignments body) body (List.Subset.refl _)
  have hblock := hbody.inBlockScope.state m
  refine ⟨⟨hblock, hblock.lookup_eq_none⟩, fun run ctx => ?_⟩
  have hrun : Framing ((stmtsAssignments body).map Assignment.atRoot)
      (pluginRun run ctx (some (execStmts w body))) := by
    apply framing_pluginRun
    intro p hp
    cases hp
    exact hbody.inGlobalScope
  exact ⟨hrun.state m, (hrun.state m).lookup_eq_none⟩

end Programs

end ZeroTrust.Ztl
