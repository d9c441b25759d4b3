import Callable.Proofs.Run.Delegation
import Callable.Proofs.Run.Operation
import Callable.Proofs.Run.Routine

/-!
# Ways to make a call

A call can be made from several places: by a value, a function or a bound method, with an observer
or, which is the silent observer, without one, and by a monitor, be it at work for some time or
started for this call. They differ in what they take and in who watches, and in nothing else. So a
call of a bound method by one of them is a call of its function by another one, with the receiver
before the other arguments.

* `Way` — the ways. `Way.call` makes a call, in the words of each.
* `Way.call_eq` — all of them come to a call of the value under the observer of the way.
* `Way.Hands` — what a call hands to the evaluator, and what becomes of it.
* `Oblivious` — an evaluator that makes nothing of who watches. It is all the same to it by which way
  it is reached.
* `Routine.Runs.heard` — with a routine, all observers hear the same.
* `Way.calls_agree` — the result.
-/

namespace Callable

variable {σ ω ω' κ : Type}

/-! ### The ways -/

/-- **A way to make a call.** The type is that of what the observer gathers. -/
inductive Way : Type → Type 1
  | value {ω : Type} (obs : Observer ω) : Way ω
  | function {ω : Type} (obs : Observer ω) : Way ω
  | method {ω : Type} (obs : Observer ω) : Way ω
  /-- By a monitor, of a function. -/
  | monitored : Way Monitor
  /-- By a monitor, of any value. -/
  | monitoredValue : Way Monitor

namespace Way

/-- Who watches. -/
def observer : Way ω → Observer ω
  | .value obs | .function obs | .method obs => obs
  | .monitored | .monitoredValue => Monitor.observer

/-- Does the way take such a value? -/
def Takes (ρ : Way ω) (v : Value) : Prop :=
  match ρ with
  | .value _ | .monitoredValue => True
  | .function _ | .monitored => v.kind = .function
  | .method _ => v.kind = .method

/-- Make a call. There is none if the way does not take the value. -/
def call (ρ : Way ω) (ev : Evaluator σ ω) (v : Value) (args : List Value) (kwargs : Table Value)
    (w : World σ ω) : Option (Outcome × World σ ω) :=
  match ρ with
  | .value obs => some (v.call ev obs args kwargs w)
  | .function obs => v.function?.map fun f => f.call ev obs args kwargs w
  | .method obs => v.method?.map fun m => m.call ev obs args kwargs w
  | .monitored => v.function?.map fun f => Monitored.call w ev f args kwargs
  | .monitoredValue => some (Monitored.callValue w ev v args kwargs)

variable {ρ : Way ω} {ρ' : Way ω'} {v v' : Value} {args args' full : List Value}
  {kwargs : Table Value} {f : FunctionRef}

theorem isSome_call_iff (ev : Evaluator σ ω) (w : World σ ω) :
    (ρ.call ev v args kwargs w).isSome = true ↔ ρ.Takes v := by
  cases ρ <;> cases v <;> simp [call, Takes, Value.function?, Value.method?, Value.kind]

/-- **All ways lead to the same call**, under the observer of each. -/
theorem call_eq (htakes : ρ.Takes v) (ev : Evaluator σ ω) (args : List Value)
    (kwargs : Table Value) (w : World σ ω) :
    ρ.call ev v args kwargs w = some (v.call ev ρ.observer args kwargs w) := by
  cases ρ with
  | value | monitoredValue => rfl
  -- these take functions only, and for a function the call of the value is its own
  | function | monitored => cases v <;> first | rfl | cases htakes
  | method => cases v <;> first | rfl | cases htakes

/-- Calls with one target, by ways with one observer, are the same call. -/
theorem call_congr {ρ ρ' : Way ω} (hobs : ρ.observer = ρ'.observer) (htakes : ρ.Takes v)
    (htakes' : ρ'.Takes v') (htarget : v.target? args = some (f, full))
    (htarget' : v'.target? args' = some (f, full)) (ev : Evaluator σ ω) (kwargs : Table Value)
    (w : World σ ω) : ρ.call ev v args kwargs w = ρ'.call ev v' args' kwargs w := by
  rw [call_eq htakes, call_eq htakes', Value.call_of_target? htarget, Value.call_of_target? htarget',
    hobs]

/-! ### What is handed over -/

/-- **A call hands over a request.** The observer hears that a call of `f` begins, under its
qualified name, the evaluator gets this request and no other one, its answer is that of the call, and
the observer hears whether that is a value or an error. -/
def Hands (ρ : Way ω) (ev : Evaluator σ ω) (v : Value) (args : List Value) (kwargs : Table Value)
    (w : World σ ω) (f : FunctionRef) (r : Request) : Prop :=
  let entered :=
    { w with store := (w.store.newDict .empty).2 }.report
      (ρ.observer.enter (w.store.function f).qualname)
  let (outcome, left) := ev ρ.observer r entered
  let ended := left.report (ρ.observer.exit outcome.isOk)
  ρ.call ev v args kwargs w = some (outcome, ended) ∧
    ∀ log, ρ.call ev.logged v args kwargs (w.withLog log) =
      some (outcome, ended.withLog (log ++ [r]))

theorem hands_of_target? (htakes : ρ.Takes v) (htarget : v.target? args = some (f, full))
    (ev : Evaluator σ ω) (kwargs : Table Value) (w : World σ ω) :
    ρ.Hands ev v args kwargs w f (w.requestTo f full kwargs) := by
  constructor
  · rw [call_eq htakes, Value.call_of_target? htarget]
    rfl
  · -- the same with the evaluator that keeps a list, which is an evaluator as any other
    intro log
    rw [call_eq htakes, Value.call_of_target? htarget]
    rfl

/-- What cannot be called is refused on every way, and neither evaluator nor observer is asked. -/
theorem call_of_not_isCallable (htakes : ρ.Takes v) (hv : v.isCallable = false)
    (ev : Evaluator σ ω) (args : List Value) (kwargs : Table Value) (w : World σ ω) :
    ρ.call ev v args kwargs w =
      some (.error (.raised ⟨.typeError, some ("'" ++ v.kind.name ++ "' object is not callable")⟩),
        w) := by
  rw [call_eq htakes, Value.call_of_not_isCallable hv]
  rfl

/-- A call gets to the evaluator exactly if the value can be called. -/
theorem isCallable_iff_logged (htakes : ρ.Takes v) (ev : Evaluator σ ω) (args : List Value)
    (kwargs : Table Value) (w : World σ ω) (log : List Request) :
    v.isCallable = true ↔
      ∃ r after, ρ.call ev.logged v args kwargs (w.withLog log) = some after ∧
        after.2.host.2 = log ++ [r] := by
  constructor
  · intro hv
    -- what can be called has a target, and its request is what is logged
    rw [← v.isSome_target? args] at hv
    obtain ⟨⟨f, full⟩, htarget⟩ := Option.isSome_iff_exists.1 hv
    exact ⟨_, _, (hands_of_target? htakes htarget ev kwargs w).2 log, rfl⟩
  · rintro ⟨r, after, hcall, hlog⟩
    cases hv : v.isCallable with
    | true => rfl
    | false =>
      rw [call_of_not_isCallable htakes hv] at hcall
      cases hcall
      -- the log is as long as it was
      have hlength := congrArg List.length hlog
      rw [List.length_append, List.length_singleton] at hlength
      exact absurd hlength (Nat.ne_of_lt (Nat.lt_succ_self _))

end Way

/-! ### Evaluators that make nothing of who watches -/

/-- **An evaluator that makes nothing of who watches:** in worlds that agree it comes to the same
outcome, and leaves worlds that agree. -/
structure Oblivious (σ : Type) where
  evaluator : ∀ {ω : Type}, Evaluator σ ω
  agrees : ∀ {ω ω' : Type} (obs : Observer ω) (obs' : Observer ω') (r : Request) {w : World σ ω}
    {w' : World σ ω'}, w.Agrees w' →
    (evaluator obs r w).1 = (evaluator obs' r w').1 ∧
      (evaluator obs r w).2.Agrees (evaluator obs' r w').2

/-- What follows a routine is oblivious. -/
def Indifferent.oblivious (E : Indifferent σ) : Oblivious σ where
  evaluator := E.evaluator
  agrees obs obs' r w w' h := ((E.runs obs r w).agrees (E.runs obs' r w') h).2

/-- To an oblivious evaluator all ways are the same. -/
theorem Oblivious.call_agrees (E : Oblivious σ) (obs : Observer ω) (obs' : Observer ω')
    {w : World σ ω} {w' : World σ ω'} (h : w.Agrees w') (f : FunctionRef) (args : List Value)
    (kwargs : Table Value) :
    (f.call E.evaluator obs args kwargs w).1 = (f.call E.evaluator obs' args kwargs w').1 ∧
      (f.call E.evaluator obs args kwargs w).2.Agrees
        (f.call E.evaluator obs' args kwargs w').2 := by
  -- both evaluations begin with one request, in worlds that agree
  obtain ⟨houtcome, hended⟩ :=
    E.agrees obs obs' (w.requestTo f args kwargs) (h.entering f obs obs')
  rw [FunctionRef.call_eq, FunctionRef.call_eq, FunctionRef.evaluation, FunctionRef.evaluation,
    ← h.requestTo_eq]
  exact ⟨houtcome, hended.report _ _⟩

/-! ### What observers hear -/

/-- What an observer is told. -/
inductive Notice where
  | enter (qualname : String)
  | exit (ok : Bool)

namespace Observer

/-- Tell the observer something. -/
def hear (obs : Observer ω) : Notice → ω → ω × String
  | .enter qualname => obs.enter qualname
  | .exit ok => obs.exit ok

/-- What is gathered and on the console after some notices. -/
def hearAll (obs : Observer ω) (notices : List Notice) (heard : ω × String) : ω × String :=
  notices.foldl (fun h n => ((obs.hear n h.1).1, h.2 ++ (obs.hear n h.1).2)) heard

theorem hearAll_append (obs : Observer ω) (notices notices' : List Notice) (heard : ω × String) :
    obs.hearAll (notices ++ notices') heard = obs.hearAll notices' (obs.hearAll notices heard) :=
  List.foldl_append ..

theorem hearAll_silent (notices : List Notice) (heard : ω × String) :
    Observer.silent.hearAll notices heard = heard := by
  induction notices with
  | nil => rfl
  | cons n notices ih =>
    -- the silent observer puts nothing down and nothing on the console
    have hfirst : Observer.silent.hear n heard.1 = (heard.1, "") := by cases n <;> rfl
    rw [hearAll, List.foldl_cons, hfirst, String.append_empty]
    exact ih

end Observer

/-- What the observer has gathered, and the console. -/
def World.heard (w : World σ ω) : ω × String := (w.watch, w.console)

/-- What is heard of a call: its beginning, then what is heard in between, then its end. -/
theorem World.heard_of_inner {obs : Observer ω} {w w₁ : World σ ω} {f : FunctionRef}
    {inner : List Notice} (h : w₁.heard = obs.hearAll inner (w.entering f obs).heard) (ok : Bool) :
    (w₁.report (obs.exit ok)).heard =
      obs.hearAll (.enter (w.store.function f).qualname :: inner ++ [.exit ok]) w.heard := by
  have hbegin : (w.entering f obs).heard =
      obs.hearAll [.enter (w.store.function f).qualname] w.heard := rfl
  calc (w₁.report (obs.exit ok)).heard
      = obs.hearAll [.exit ok] w₁.heard := rfl
    _ = obs.hearAll (([.enter (w.store.function f).qualname] ++ inner) ++ [.exit ok]) w.heard := by
      rw [h, hbegin, Observer.hearAll_append, Observer.hearAll_append]

/-- **All observers hear the same.** For a run of a routine there is a list of notices such that
every observer of a run of the same job, in a world that agrees, hears these in this order. -/
theorem Routine.Runs.heard {ρ : Routine σ κ} {obs : Observer ω} {job : Job κ} {w w' : World σ ω}
    {rs : List Request} {r : Outcome} (h : ρ.Runs obs job w rs r w') :
    ∃ notices, ∀ {ω' : Type} {obs' : Observer ω'} {v v' : World σ ω'} {rs' : List Request}
      {r' : Outcome}, ρ.Runs obs' job v rs' r' v' → w.Agrees v →
      v'.heard = obs'.hearAll notices v.heard := by
  -- by induction on the one run; the other one has to take the same turns in worlds that agree
  induction h with
  | answer hmove =>
    refine ⟨[], ?_⟩
    intro ω' obs' v v' rs' r' h' hagrees
    rw [hagrees.store, hagrees.host] at hmove
    cases h' with
    | answer => rfl
    | call hmove' _ _ => cases hmove.symm.trans hmove'
  | @call obs k w w₁ w₂ store host observed callee args kwargs entry resume rs rs₁ r r₁ hmove made
      rest ihmade ihrest =>
    obtain ⟨during, hduring⟩ := ihmade
    obtain ⟨later, hlater⟩ := ihrest
    -- of a call that is not to be observed nothing is heard
    refine ⟨(if observed then during else []) ++ later, ?_⟩
    intro ω' obs' v v' rs' r' h' hagrees
    rw [hagrees.store, hagrees.host] at hmove
    cases h' with
    | answer hmove' => cases hmove.symm.trans hmove'
    | call hmove' made' rest' =>
      cases hmove.symm.trans hmove'
      -- the call has one outcome in both runs, so both resume in one state
      obtain ⟨rfl, rfl, hcalled⟩ := made.agrees made' ⟨rfl, rfl⟩
      rw [hlater rest' hcalled, hduring made' ⟨rfl, rfl⟩, Observer.hearAll_append]
      cases observed with
      | true => rfl
      | false => exact congrArg _ (Observer.hearAll_silent during _)
  | refused htarget =>
    -- of a refusal nobody hears
    refine ⟨[], ?_⟩
    intro ω' obs' v v' rs' r' h' _
    cases h' with
    | refused => rfl
    | entered htarget' _ => cases htarget.symm.trans htarget'
  | @entered obs entry callee args full kwargs w w₁ f rs r htarget body ih =>
    obtain ⟨inner, hinner⟩ := ih
    refine ⟨.enter (w.store.function f).qualname :: inner ++ [.exit r.isOk], ?_⟩
    intro ω' obs' v v' rs' r' h' hagrees
    cases h' with
    | refused htarget' => cases htarget.symm.trans htarget'
    | @entered _ _ _ _ _ _ _ v₁ _ _ _ htarget' body' =>
      cases htarget.symm.trans htarget'
      -- both evaluators get the same request, and both observers have heard of its beginning
      rw [← hagrees.requestTo_eq] at body'
      have hentered := hagrees.entering f obs obs'
      obtain ⟨-, rfl, -⟩ := body.agrees body' hentered
      rw [hagrees.store]
      exact World.heard_of_inner (hinner body' hentered) _

/-- All observers hear the same of a call by an evaluator that follows a routine. -/
theorem Indifferent.call_heard (E : Indifferent σ) (w : World σ ω) (f : FunctionRef)
    (args : List Value) (kwargs : Table Value) :
    ∃ inner, ∀ {ω' : Type} (obs' : Observer ω') (w' : World σ ω'), w.Agrees w' →
      (f.call E.evaluator obs' args kwargs w').2.heard =
        obs'.hearAll (.enter (w.store.function f).qualname :: inner ++
          [.exit (f.call E.evaluator obs' args kwargs w').1.isOk]) w'.heard := by
  -- what is heard in between is read off the run that nobody watches
  have hruns := E.runs .silent (w.requestTo f args kwargs) (w.entering f .silent)
  obtain ⟨inner, hinner⟩ := hruns.heard
  refine ⟨inner, ?_⟩
  intro ω' obs' w' hagrees
  have hruns' := E.runs obs' (w'.requestTo f args kwargs) (w'.entering f obs')
  rw [← hagrees.requestTo_eq] at hruns'
  have hbody := hinner hruns' (hagrees.entering f .silent obs')
  rw [FunctionRef.call_eq, FunctionRef.evaluation, ← hagrees.requestTo_eq, hagrees.store]
  exact World.heard_of_inner hbody _

/-! ### The result -/

namespace Way

/-- **Two ways to one call.** The bound method is called by the one, and its function, with the
receiver before the other arguments, by the other. -/
structure Agree (ρ : Way ω) (ρ' : Way ω') (m : Method) (args : List Value)
    (kwargs : Table Value) (w : World σ ω) (w' : World σ ω') : Prop where
  /-- All evaluators get the same request, which is a snapshot of the function. -/
  request : ∃ r s, Handover w.store m.function (m.receiver :: args) kwargs r s ∧
    (∀ ev, ρ.Hands ev (.method m) args kwargs w m.function r) ∧
    ∀ ev, ρ'.Hands ev (.function m.function) (m.receiver :: args) kwargs w' m.function r
  /-- An evaluator that makes nothing of who watches comes to the same. -/
  outcome (E : Oblivious σ) : ∃ outcome after after',
    ρ.call E.evaluator (.method m) args kwargs w = some (outcome, after) ∧
      ρ'.call E.evaluator (.function m.function) (m.receiver :: args) kwargs w' =
        some (outcome, after') ∧
      after.Agrees after'
  /-- If it follows a routine, both observers hear the same, from the beginning of the call under the
  name of the function to its end. -/
  heard (E : Indifferent σ) : ∃ inner outcome after after',
    ρ.call E.evaluator (.method m) args kwargs w = some (outcome, after) ∧
      ρ'.call E.evaluator (.function m.function) (m.receiver :: args) kwargs w' =
        some (outcome, after') ∧
      let notices :=
        .enter (w.store.function m.function).qualname :: inner ++ [.exit outcome.isOk]
      after.heard = ρ.observer.hearAll notices w.heard ∧
        after'.heard = ρ'.observer.hearAll notices w'.heard

/-- An evaluator that makes nothing of who watches comes to one outcome on both ways. -/
theorem calls_of_oblivious (E : Oblivious σ) {ρ : Way ω} {ρ' : Way ω'} (htakes : ρ.Takes v)
    (htakes' : ρ'.Takes v') (htarget : v.target? args = some (f, full))
    (htarget' : v'.target? args' = some (f, full)) {w : World σ ω} {w' : World σ ω'}
    (h : w.Agrees w') (kwargs : Table Value) :
    ∃ outcome after after',
      f.call E.evaluator ρ.observer full kwargs w = (outcome, after) ∧
      f.call E.evaluator ρ'.observer full kwargs w' = (outcome, after') ∧
      ρ.call E.evaluator v args kwargs w = some (outcome, after) ∧
      ρ'.call E.evaluator v' args' kwargs w' = some (outcome, after') ∧ after.Agrees after' := by
  have hways := E.call_agrees ρ.observer ρ'.observer h f full kwargs
  rw [call_eq htakes, call_eq htakes', Value.call_of_target? htarget,
    Value.call_of_target? htarget']
  -- the two calls are named, so that they can be compared as pairs
  rcases hcall : f.call E.evaluator ρ.observer full kwargs w with ⟨outcome, after⟩
  rcases hcall' : f.call E.evaluator ρ'.observer full kwargs w' with ⟨outcome', after'⟩
  rw [hcall, hcall'] at hways
  obtain ⟨houtcome, hended⟩ := hways
  cases houtcome
  exact ⟨outcome, after, after', rfl, rfl, rfl, rfl, hended⟩

theorem agree {ρ : Way ω} {ρ' : Way ω'} {m : Method} (htakes : ρ.Takes (.method m))
    (htakes' : ρ'.Takes (.function m.function)) {w : World σ ω} {w' : World σ ω'}
    (h : w.Agrees w') (args : List Value) (kwargs : Table Value) :
    ρ.Agree ρ' m args kwargs w w' := by
  -- both reach the same function with the same arguments, the receiver among them
  have htarget : (Value.method m).target? args = some (m.function, m.receiver :: args) := rfl
  have htarget' : (Value.function m.function).target? (m.receiver :: args) =
      some (m.function, m.receiver :: args) := rfl
  constructor
  case request =>
    refine ⟨_, _, handover_request w.store m.function _ kwargs,
      fun ev => hands_of_target? htakes htarget ev kwargs w, ?_⟩
    -- the request depends on the store alone, in which the worlds agree
    intro ev
    have hands := hands_of_target? htakes' htarget' ev kwargs w'
    rw [← h.requestTo_eq] at hands
    exact hands
  case outcome =>
    intro E
    obtain ⟨outcome, after, after', -, -, hways⟩ :=
      calls_of_oblivious E htakes htakes' htarget htarget' h kwargs
    exact ⟨outcome, after, after', hways⟩
  case heard =>
    intro E
    -- what is heard in between is the same for all observers, hence for these two
    obtain ⟨inner, hinner⟩ := E.call_heard w m.function (m.receiver :: args) kwargs
    obtain ⟨outcome, after, after', hcall, hcall', hway, hway', -⟩ :=
      calls_of_oblivious E.oblivious htakes htakes' htarget htarget' h kwargs
    have hheard := hinner ρ.observer w ⟨rfl, rfl⟩
    have hheard' := hinner ρ'.observer w' h
    -- as an oblivious evaluator it is the evaluator that it was
    have hevaluator (υ : Type) : (E.evaluator : Evaluator σ υ) = E.oblivious.evaluator := rfl
    rw [hevaluator, hcall] at hheard
    rw [hevaluator, hcall'] at hheard'
    exact ⟨inner, outcome, after, after', hway, hway', hheard, hheard'⟩

/-- **Calls agree on all ways.** A bound method is called by one way, and its function, with the
receiver before the other arguments, by another. If the same observer watches, it is the same call,
whatever the evaluator. If others watch, the evaluator gets the same request, and if it makes
nothing of who watches it comes to the same outcome, in worlds that agree, and both observers hear
the same. What is neither function nor bound method is refused on all ways that take it, and nothing
happens to the world or at the evaluator: what can be called is what gets there. -/
theorem calls_agree :
    (∀ {σ ω : Type} {ρ ρ' : Way ω} {m : Method}, ρ.observer = ρ'.observer →
      ρ.Takes (.method m) → ρ'.Takes (.function m.function) →
      ∀ (ev : Evaluator σ ω) (args : List Value) (kwargs : Table Value) (w : World σ ω),
      ρ.call ev (.method m) args kwargs w =
        ρ'.call ev (.function m.function) (m.receiver :: args) kwargs w) ∧
    (∀ {σ ω ω' : Type} {ρ : Way ω} {ρ' : Way ω'} {m : Method}, ρ.Takes (.method m) →
      ρ'.Takes (.function m.function) → ∀ {w : World σ ω} {w' : World σ ω'}, w.Agrees w' →
      ∀ (args : List Value) (kwargs : Table Value), ρ.Agree ρ' m args kwargs w w') ∧
    ∀ {σ ω : Type} {ρ : Way ω} {v : Value}, ρ.Takes v →
      ∀ (ev : Evaluator σ ω) (args : List Value) (kwargs : Table Value) (w : World σ ω)
        (log : List Request),
      (v.isCallable = false →
        ρ.call ev v args kwargs w = some (.error
          (.raised ⟨.typeError, some ("'" ++ v.kind.name ++ "' object is not callable")⟩), w)) ∧
      (v.isCallable = true ↔ ∃ r after,
        ρ.call ev.logged v args kwargs (w.withLog log) = some after ∧
          after.2.host.2 = log ++ [r]) := by
  refine ⟨?sameObserver, ?otherObservers, ?notCallable⟩
  case sameObserver =>
    intro σ ω ρ ρ' m hobs htakes htakes' ev args kwargs w
    exact call_congr hobs htakes htakes' rfl rfl ev kwargs w
  case otherObservers =>
    intro σ ω ω' ρ ρ' m htakes htakes' w w' h args kwargs
    exact agree htakes htakes' h args kwargs
  case notCallable =>
    intro σ ω ρ v htakes ev args kwargs w log
    refine ⟨?_, isCallable_iff_logged htakes ev args kwargs w log⟩
    intro hv
    exact call_of_not_isCallable htakes hv ev args kwargs w

/-! ### A method whose receiver is its own function -/

/-- A function, bound to itself. -/
def selfBound : Method := ⟨⟨1⟩, ⟨0⟩, .function ⟨0⟩⟩

/-- A world with that function in it, and with these notes. -/
def selfBoundWorld {ω : Type} (watch : ω) : World Nat ω where
  store := (Store.empty.makeFunction ⟨⟨0⟩, "f", [], []⟩ ⟨0⟩ "").2
  host := 0
  watch := watch
  console := ""

/-- The method is called unseen, and its function by a monitor that was just started. The relay comes
to the same, with a call of the receiver seen and one unseen in either case. An absence is refused. -/
theorem calls_agree_selfBound :
    (∃ outcome after after',
      (Way.method .silent).call (Indifferent.relay 1).evaluator (.method selfBound) [] .empty
          (selfBoundWorld ()) = some (outcome, after) ∧
        Way.monitored.call (Indifferent.relay 1).evaluator (.function ⟨0⟩) [.function ⟨0⟩] .empty
          (selfBoundWorld (.start .silent)) = some (outcome, after') ∧
        after.Agrees after' ∧ after.host = 3) ∧
      (Way.value .silent).call (Indifferent.relay 1).evaluator .none [] .empty
          (selfBoundWorld ()) =
        some (.error (.raised ⟨.typeError, some "'NoneType' object is not callable"⟩),
          selfBoundWorld ()) := by
  have hagrees : (selfBoundWorld ()).Agrees (selfBoundWorld (.start .silent) : Monitored Nat) :=
    ⟨rfl, rfl⟩
  have htakes : (Way.method (.silent : Observer Unit)).Takes (.method selfBound) := rfl
  have htakes' : Way.monitored.Takes (.function selfBound.function) := rfl
  obtain ⟨-, others, refused⟩ := calls_agree
  obtain ⟨outcome, after, after', hcall, hcall', hended⟩ :=
    (others htakes htakes' hagrees [] .empty).outcome (Indifferent.relay 1).oblivious
  refine ⟨⟨outcome, after, after', hcall, hcall', hended, ?_⟩, ?_⟩
  · -- the relay has counted three evaluations
    cases hcall
    rfl
  · have hnone : (Way.value (.silent : Observer Unit)).Takes .none := trivial
    exact (refused hnone _ [] .empty (selfBoundWorld ()) []).1 rfl

end Way

end Callable
