import Callable.Proofs.Run.Operation
import Callable.Proofs.Run.Routine

/-!
# Monitors are transparent

Each operation under a monitor has a direct counterpart, without any monitor. What a program gets
back from the one it gets back from the other, provided that the evaluator does not look at its
observer: the answer, the requests that the evaluator had to run in between, and the store. This is
so whatever the tracer is, at whatever depth and limit, and also if the tracer is replaced by
another one between two operations.

* `Operation.direct` — the direct counterpart of an operation.
* `Account` — what came of an operation.
* `Monitored.accounts`, `World.accounts` — the accounts of operations one after the other, under a
  monitor and directly.
* `Operation.agrees` — one operation in both ways.
* `Indifferent.transparent` — the result.
-/

namespace Callable

namespace Monitored

variable {σ ω : Type}

/-! ### Operations without a monitor -/

/-- Perform an operation directly: on the store, or by a call under any observer. -/
def Operation.direct (ev : Evaluator σ ω) (obs : Observer ω) :
    Operation σ → World σ ω → Except RunError (Option Value) × World σ ω
  | .makeFunction code globals qualname, w =>
    let (f, store) := w.store.makeFunction code globals qualname
    (.ok (some (.function f)), { w with store })
  | .makeClosure code globals qualname cells, w =>
    let (f, store) := w.store.makeClosure code globals qualname cells
    (.ok (some (.function f)), { w with store })
  | .call f args kwargs, w =>
    let (r, w) := f.call ev obs args kwargs w
    (r.map some, w)
  | .callValue v args kwargs, w =>
    let (r, w) := v.call ev obs args kwargs w
    (r.map some, w)
  | .getAttr f name, w =>
    match w.store.getAttr f name with
    | .ok (v, store) => (.ok (some v), { w with store })
    | .error e => (.error e.toError, w)
  | .setAttr f name v, w =>
    match w.store.setAttr f name v with
    | .ok store => (.ok none, { w with store })
    | .error e => (.error e.toError, w)
  | .delAttr f name, w =>
    match w.store.delAttr f name with
    | .ok store => (.ok none, { w with store })
    | .error e => (.error e.toError, w)
  | .bind f receiver, w =>
    let (v, store) := w.store.bind f receiver
    (.ok (some v), { w with store })
  | .aside change, w =>
    let (store, host) := change w.store w.host
    (.ok none, { w with store, host })

/-- The requests that an operation makes, those of calls inside of calls among them. -/
def Operation.requests (E : Indifferent σ) (obs : Observer ω) :
    Operation σ → World σ ω → List Request
  | .call f args kwargs, w => (Value.function f).requests E.requests obs args kwargs w
  | .callValue v args kwargs, w => v.requests E.requests obs args kwargs w
  | _, _ => []

/-- **One operation in both ways.** It has the same answer and makes the same requests, and the
worlds after it agree. -/
theorem Operation.agrees (E : Indifferent σ) (obs : Observer ω) (op : Operation σ)
    {m : Monitored σ} {w : World σ ω} (h : m.Agrees w) :
    op.requests E Monitor.observer m = op.requests E obs w ∧
      (op.perform E.evaluator m).1 = (op.direct E.evaluator obs w).1 ∧
      (op.perform E.evaluator m).2.Agrees (op.direct E.evaluator obs w).2 := by
  have called (v : Value) (args : List Value) (kwargs : Table Value) :=
    E.call_agrees Monitor.observer obs h v args kwargs
  -- all but the calls work on the store, which is the same; calls agree by `call_agrees`
  obtain ⟨hstore, hhost⟩ := h
  cases op with
  | makeFunction code globals qualname =>
    rw [perform, direct, Monitored.makeFunction, hstore]
    exact ⟨rfl, rfl, rfl, hhost⟩
  | makeClosure code globals qualname cells =>
    rw [perform, direct, Monitored.makeClosure, hstore]
    exact ⟨rfl, rfl, rfl, hhost⟩
  | call f args kwargs =>
    obtain ⟨hrequests, houtcome, hended⟩ := called (.function f) args kwargs
    exact ⟨hrequests, congrArg (Except.map some) houtcome, hended⟩
  | callValue v args kwargs =>
    obtain ⟨hrequests, houtcome, hended⟩ := called v args kwargs
    exact ⟨hrequests, congrArg (Except.map some) houtcome, hended⟩
  | getAttr f name =>
    -- of a read the monitor hears nothing, of the other operations it does
    rw [perform, direct, Monitored.getAttr, hstore]
    cases w.store.getAttr f name with
    | ok read => exact ⟨rfl, rfl, rfl, hhost⟩
    | error e => exact ⟨rfl, rfl, hstore, hhost⟩
  | setAttr f name v =>
    rw [perform, direct, Monitored.setAttr, hstore]
    -- the event is reported in either case, with the verdict
    cases w.store.setAttr f name v with
    | ok store => exact ⟨rfl, rfl, rfl, hhost⟩
    | error e => exact ⟨rfl, rfl, hstore, hhost⟩
  | delAttr f name =>
    rw [perform, direct, Monitored.delAttr, hstore]
    cases w.store.delAttr f name with
    | ok store => exact ⟨rfl, rfl, rfl, hhost⟩
    | error e => exact ⟨rfl, rfl, hstore, hhost⟩
  | bind f receiver =>
    rw [perform, direct, Monitored.bind, hstore]
    exact ⟨rfl, rfl, rfl, hhost⟩
  | aside change =>
    rw [perform, direct, hstore, hhost]
    exact ⟨rfl, rfl, rfl, rfl⟩

/-! ### Operations one after the other -/

/-- What came of an operation: the answer, the requests that were made, and the store and the state
of the evaluator after it. -/
structure Account (σ : Type) where
  answer : Except RunError (Option Value)
  requests : List Request
  store : Store
  host : σ

/-- The account of an operation that has been performed. -/
def account (requests : List Request) (performed : Except RunError (Option Value) × World σ ω) :
    Account σ :=
  ⟨performed.1, requests, performed.2.store, performed.2.host⟩

/-- Give the monitor another tracer, if there is one. -/
def withTracer (m : Monitored σ) : Option Tracer → Monitored σ
  | none => m
  | some tracer => { m with watch := { m.watch with tracer } }

theorem agrees_withTracer (m : Monitored σ) (t : Option Tracer) : (m.withTracer t).Agrees m := by
  cases t <;> exact ⟨rfl, rfl⟩

/-- The accounts of operations under a monitor, with the tracers that replace its own before some
of them, and the world after all. -/
def accounts (E : Indifferent σ) :
    List (Option Tracer × Operation σ) → Monitored σ → List (Account σ) × Monitored σ
  | [], m => ([], m)
  | (t, op) :: turns, m =>
    let m := m.withTracer t
    let performed := op.perform E.evaluator m
    let (rest, after) := accounts E turns performed.2
    (account (op.requests E Monitor.observer m) performed :: rest, after)

end Monitored

open Monitored in
/-- The accounts of operations that are performed directly, and the world after all. -/
def World.accounts {σ ω : Type} (E : Indifferent σ) (obs : Observer ω) :
    List (Operation σ) → World σ ω → List (Account σ) × World σ ω
  | [], w => ([], w)
  | op :: ops, w =>
    let performed := op.direct E.evaluator obs w
    let (rest, after) := World.accounts E obs ops performed.2
    (account (op.requests E obs w) performed :: rest, after)

namespace Indifferent

open Monitored

variable {σ ω : Type}

/-- Under a monitor as without one, operation by operation. -/
theorem accounts_eq (E : Indifferent σ) (turns : List (Option Tracer × Operation σ))
    {m : Monitored σ} (obs : Observer ω) {w : World σ ω} (h : m.Agrees w) :
    (Monitored.accounts E turns m).1 = (World.accounts E obs (turns.map Prod.snd) w).1 ∧
      (Monitored.accounts E turns m).2.Agrees
        (World.accounts E obs (turns.map Prod.snd) w).2 := by
  -- the worlds are general: they agree at first, and again after each operation
  induction turns generalizing m w with
  | nil => exact ⟨rfl, h⟩
  | cons turn turns ih =>
    obtain ⟨t, op⟩ := turn
    obtain ⟨hrequests, hanswer, hafter⟩ := op.agrees E obs ((m.agrees_withTracer t).trans h)
    obtain ⟨hrest, hended⟩ := ih hafter
    -- an account has in it what the two worlds agree on
    have hfirst : account (op.requests E Monitor.observer (m.withTracer t))
          (op.perform E.evaluator (m.withTracer t)) =
        account (op.requests E obs w) (op.direct E.evaluator obs w) := by
      rw [account, account, hrequests, hanswer, hafter.store, hafter.host]
    exact ⟨congr (congrArg List.cons hfirst) hrest, hended⟩

/-- **Monitors are transparent.** For an evaluator that does not look at its observer, operations
under a monitor have the accounts of the direct ones, whatever observer the direct calls have; with
other tracers, at the beginning or later, they have the same accounts; and a call has the same
outcome and requests and leaves the same store under all observers. -/
theorem transparent (E : Indifferent σ) :
    (∀ {ω : Type} (turns : List (Option Tracer × Operation σ)) (m : Monitored σ)
      (obs : Observer ω) (w : World σ ω), m.Agrees w →
      (Monitored.accounts E turns m).1 = (World.accounts E obs (turns.map Prod.snd) w).1 ∧
        (Monitored.accounts E turns m).2.Agrees
          (World.accounts E obs (turns.map Prod.snd) w).2) ∧
    (∀ (turns turns' : List (Option Tracer × Operation σ)) (m m' : Monitored σ),
      turns.map Prod.snd = turns'.map Prod.snd → m.Agrees m' →
      (Monitored.accounts E turns m).1 = (Monitored.accounts E turns' m').1 ∧
        (Monitored.accounts E turns m).2.Agrees (Monitored.accounts E turns' m').2) ∧
    ∀ {ω ω' : Type} (obs : Observer ω) (obs' : Observer ω') (w : World σ ω) (w' : World σ ω'),
      w.Agrees w' → ∀ (v : Value) (args : List Value) (kwargs : Table Value),
      v.requests E.requests obs args kwargs w = v.requests E.requests obs' args kwargs w' ∧
        (v.call E.evaluator obs args kwargs w).1 = (v.call E.evaluator obs' args kwargs w').1 ∧
        (v.call E.evaluator obs args kwargs w).2.Agrees
          (v.call E.evaluator obs' args kwargs w').2 := by
  refine ⟨fun turns m obs w h => E.accounts_eq turns obs h, fun turns turns' m m' hops h => ?_,
    fun obs obs' w w' h v args kwargs => E.call_agrees obs obs' h v args kwargs⟩
  -- both are compared with the direct operations, from the world of the second monitor
  obtain ⟨haccounts, hended⟩ := E.accounts_eq turns Observer.silent h
  obtain ⟨haccounts', hended'⟩ := E.accounts_eq turns' Observer.silent (m := m') ⟨rfl, rfl⟩
  rw [hops] at haccounts hended
  exact ⟨haccounts.trans haccounts'.symm, hended.trans hended'.symm⟩

/-! ### Seven requests -/

/-- A monitor with a log that goes quiet after two events, and a function. -/
def relayWorld : Monitored Nat where
  store := (Store.empty.makeFunction ⟨⟨0⟩, "f", [], []⟩ ⟨0⟩ "").2
  host := 0
  watch := .start (.log (.start (some 2)))
  console := ""

/-- The function is called by a relay of three levels, and then, with another tracer, it is given a
name that is refused. -/
def relayTurns : List (Option Tracer × Operation Nat) :=
  [(none, .callValue (.function ⟨0⟩) [.function ⟨0⟩, .function ⟨0⟩] .empty),
    (some (.recording (.start none)), .setAttr ⟨0⟩ "__name__" .none)]

theorem transparent_relay :
    (Monitored.accounts (relay 2) relayTurns relayWorld).1 =
        (World.accounts (relay 2) Observer.silent (relayTurns.map Prod.snd)
          ⟨relayWorld.store, 0, (), ""⟩).1 ∧
      (Monitored.accounts (relay 2) relayTurns relayWorld).1.map (·.requests.length) = [7, 0] ∧
      (Monitored.accounts (relay 2) relayTurns relayWorld).1.map (·.answer.isOk) =
        [true, false] := by
  have hagrees : relayWorld.Agrees (⟨relayWorld.store, 0, (), ""⟩ : World Nat Unit) := ⟨rfl, rfl⟩
  exact ⟨((relay 2).transparent.1 relayTurns relayWorld .silent _ hagrees).1, rfl, rfl⟩

end Indifferent

end Callable
