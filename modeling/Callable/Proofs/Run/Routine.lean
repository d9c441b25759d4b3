import Callable.Proofs.Run.Course

/-!
# Routines

An evaluator is handed the observer of the call that it runs. Most evaluators do nothing with it but
give it to the calls that they make. What such an evaluator does can be written down without
observers, as a routine: a program that sees the store and the evaluator's own state, and that comes
to an answer or to a call, of which it says whether it is to be observed.

* `Routine` — such a program, as a table of what comes next in each of its states.
* `Routine.Runs` — a run of a routine under an observer, with the requests that were made in it.
* `Routine.Runs.agrees` — the observer decides nothing: runs from worlds that agree make the same
  requests, come to the same outcome, and end in worlds that agree.
* `Indifferent` — an evaluator with its routine. `Indifferent.relay` is one that makes calls inside
  of calls, some of them observed and some not.
-/

namespace Callable

variable {σ ω ω' κ : Type}

/-! ### Worlds that agree -/

/-- Two worlds agree if nothing but the notes of an observer and the console tell them apart. The
observers may be of different sorts. -/
structure World.Agrees (w : World σ ω) (v : World σ ω') : Prop where
  store : w.store = v.store
  host : w.host = v.host

namespace World.Agrees

variable {w : World σ ω} {v : World σ ω'}

theorem symm (h : w.Agrees v) : v.Agrees w := ⟨h.store.symm, h.host.symm⟩

theorem trans {ω'' : Type} {u : World σ ω''} (h : w.Agrees v) (h' : v.Agrees u) : w.Agrees u :=
  ⟨h.store.trans h'.store, h.host.trans h'.host⟩

/-- What an observer is told changes its notes and the console only. -/
theorem report (h : w.Agrees v) (tell : ω → ω × String) (tell' : ω' → ω' × String) :
    (w.report tell).Agrees (v.report tell') :=
  ⟨h.store, h.host⟩

theorem entering (h : w.Agrees v) (f : FunctionRef) (obs : Observer ω) (obs' : Observer ω') :
    (w.entering f obs).Agrees (v.entering f obs') :=
  ⟨congrArg (fun s : Store => (s.newDict .empty).2) h.store, h.host⟩

theorem requestTo_eq (h : w.Agrees v) (f : FunctionRef) (args : List Value)
    (kwargs : Table Value) : w.requestTo f args kwargs = v.requestTo f args kwargs := by
  rw [World.requestTo, World.requestTo, h.store]

end World.Agrees

/-! ### Routines -/

/-- What a routine comes to next: an answer, or a call of a value. The evaluator of the call is
given by the state in which it begins, for any request; the routine goes on when it has the
outcome. -/
inductive Move (κ : Type) where
  | answer (outcome : Outcome)
  | call (observed : Bool) (callee : Value) (args : List Value) (kwargs : Table Value)
      (entry : Request → κ) (resume : Outcome → κ)

/-- **A routine.** In each of its states it works on the store and on the state of the evaluator,
and comes to a move. It has no way to look at an observer. -/
abbrev Routine (σ κ : Type) := κ → Store → σ → (Store × σ) × Move κ

/-- What is to be run: a routine from some state on, or a call by an evaluator that begins so. -/
inductive Job (κ : Type) where
  | body (k : κ)
  | call (entry : Request → κ) (callee : Value) (args : List Value) (kwargs : Table Value)

/-- **The runs of a routine** under an observer, from one world to another, with the requests that
were made in it, in their order, and the outcome. A call that is not to be observed has the silent
observer. -/
inductive Routine.Runs (ρ : Routine σ κ) :
    Observer ω → Job κ → World σ ω → List Request → Outcome → World σ ω → Prop
  | answer {obs : Observer ω} {k : κ} {w : World σ ω} {store : Store} {host : σ} {r : Outcome}
      (hmove : ρ k w.store w.host = ((store, host), .answer r)) :
      Runs ρ obs (.body k) w [] r { w with store, host }
  | call {obs : Observer ω} {k : κ} {w w₁ w₂ : World σ ω} {store : Store} {host : σ}
      {observed : Bool} {callee : Value} {args : List Value} {kwargs : Table Value}
      {entry : Request → κ} {resume : Outcome → κ} {rs rs' : List Request} {r r' : Outcome}
      (hmove : ρ k w.store w.host =
        ((store, host), .call observed callee args kwargs entry resume))
      (made : Runs ρ (if observed then obs else .silent) (.call entry callee args kwargs)
        { w with store, host } rs r w₁)
      (rest : Runs ρ obs (.body (resume r)) w₁ rs' r' w₂) :
      Runs ρ obs (.body k) w (rs ++ rs') r' w₂
  | refused {obs : Observer ω} {entry : Request → κ} {callee : Value} {args : List Value}
      {kwargs : Table Value} {w : World σ ω} (htarget : callee.target? args = none) :
      Runs ρ obs (.call entry callee args kwargs) w []
        (.error (Fault.notCallable callee.kind).toError) w
  | entered {obs : Observer ω} {entry : Request → κ} {callee : Value} {args full : List Value}
      {kwargs : Table Value} {w w₁ : World σ ω} {f : FunctionRef} {rs : List Request} {r : Outcome}
      (htarget : callee.target? args = some (f, full))
      (body : Runs ρ obs (.body (entry (w.requestTo f full kwargs))) (w.entering f obs) rs r w₁) :
      Runs ρ obs (.call entry callee args kwargs) w (w.requestTo f full kwargs :: rs) r
        (w₁.report (obs.exit r.isOk))

/-- **The observer decides nothing.** Two runs of one job from worlds that agree are the same but
for what the observers make of them. In particular there are no two runs of it from one world. -/
theorem Routine.Runs.agrees {ρ : Routine σ κ} {obs : Observer ω} {obs' : Observer ω'} {job : Job κ}
    {w w' : World σ ω} {v v' : World σ ω'} {rs rs' : List Request} {r r' : Outcome}
    (h : ρ.Runs obs job w rs r w') (h' : ρ.Runs obs' job v rs' r' v') (hagrees : w.Agrees v) :
    rs = rs' ∧ r = r' ∧ w'.Agrees v' := by
  -- the routine sees store and host only, so both runs make the same move, whoever watches
  induction h generalizing obs' v rs' r' v' with
  | answer hmove =>
    -- the move is an answer in one run and so in the other, as it is one value of one function
    rw [hagrees.store, hagrees.host] at hmove
    cases h' with
    | answer hmove' =>
      cases hmove.symm.trans hmove'
      exact ⟨rfl, rfl, rfl, rfl⟩
    | call hmove' _ _ => cases hmove.symm.trans hmove'
  | call hmove _ _ ihmade ihrest =>
    rw [hagrees.store, hagrees.host] at hmove
    cases h' with
    | answer hmove' => cases hmove.symm.trans hmove'
    | call hmove' made' rest' =>
      cases hmove.symm.trans hmove'
      -- the same outcome comes back in both runs, so they resume in the same state
      obtain ⟨rfl, rfl, hcalled⟩ := ihmade made' ⟨rfl, rfl⟩
      obtain ⟨rfl, rfl, hended⟩ := ihrest rest' hcalled
      exact ⟨rfl, rfl, hended⟩
  | refused htarget =>
    cases h' with
    | refused => exact ⟨rfl, rfl, hagrees⟩
    | entered htarget' _ => cases htarget.symm.trans htarget'
  | @entered obs entry callee args full kwargs w w₁ f rs r htarget _ ih =>
    cases h' with
    | refused htarget' => cases htarget.symm.trans htarget'
    | entered htarget' body' =>
      cases htarget.symm.trans htarget'
      -- worlds that agree make one request, and the evaluations begin in worlds that agree
      rw [← hagrees.requestTo_eq] at body'
      obtain ⟨rfl, rfl, hended⟩ := ih body' (hagrees.entering f _ _)
      exact ⟨by rw [hagrees.requestTo_eq], rfl, hended.report _ _⟩

/-! ### Evaluators that follow a routine -/

/-- The requests of a call: the one that it makes itself, and those made by its evaluation. -/
def Value.requests (requests : Observer ω → Request → World σ ω → List Request)
    (obs : Observer ω) (v : Value) (args : List Value) (kwargs : Table Value) (w : World σ ω) :
    List Request :=
  match v.target? args with
  | Option.none => []
  | some (f, full) =>
    w.requestTo f full kwargs :: requests obs (w.requestTo f full kwargs) (w.entering f obs)

/-- Calls by an evaluator that follows the routine are runs of it. -/
theorem Routine.runs_call {ρ : Routine σ κ} {entry : Request → κ} {ev : Evaluator σ ω}
    {requests : Observer ω → Request → World σ ω → List Request}
    (hruns : ∀ obs r w,
      ρ.Runs obs (.body (entry r)) w (requests obs r w) (ev obs r w).1 (ev obs r w).2)
    (obs : Observer ω) (v : Value) (args : List Value) (kwargs : Table Value) (w : World σ ω) :
    ρ.Runs obs (.call entry v args kwargs) w (v.requests requests obs args kwargs w)
      (v.call ev obs args kwargs w).1 (v.call ev obs args kwargs w).2 := by
  rw [Value.requests]
  -- what has no target is refused before the evaluator is reached
  cases htarget : v.target? args with
  | none =>
    have hcall : v.isCallable = false := by rw [← v.isSome_target? args, htarget]; rfl
    rw [Value.call_of_not_isCallable hcall]
    exact .refused htarget
  | some target =>
    obtain ⟨f, full⟩ := target
    rw [Value.call_of_target? htarget]
    exact .entered htarget (hruns obs (w.requestTo f full kwargs) (w.entering f obs))

/-- **An evaluator that does not look at its observer.** Whatever it is asked to run and whoever
watches, it follows its routine; the requests are those that are made in the course of it. -/
structure Indifferent (σ : Type) where
  κ : Type
  routine : Routine σ κ
  /-- The state of the routine in which a request is begun. -/
  entry : Request → κ
  evaluator : ∀ {ω : Type}, Evaluator σ ω
  requests : ∀ {ω : Type}, Observer ω → Request → World σ ω → List Request
  runs : ∀ {ω : Type} (obs : Observer ω) (r : Request) (w : World σ ω),
    routine.Runs obs (.body (entry r)) w (requests obs r w) (evaluator obs r w).1
      (evaluator obs r w).2

namespace Indifferent

/-- **Any observer will do.** A call by an evaluator that does not look at its observer answers the
same, makes the same requests and leaves the same store under all observers. -/
theorem call_agrees (E : Indifferent σ) (obs : Observer ω) (obs' : Observer ω') {w : World σ ω}
    {w' : World σ ω'} (hagrees : w.Agrees w') (v : Value) (args : List Value)
    (kwargs : Table Value) :
    v.requests E.requests obs args kwargs w = v.requests E.requests obs' args kwargs w' ∧
      (v.call E.evaluator obs args kwargs w).1 = (v.call E.evaluator obs' args kwargs w').1 ∧
      (v.call E.evaluator obs args kwargs w).2.Agrees (v.call E.evaluator obs' args kwargs w').2 :=
  (Routine.runs_call (E.runs (ω := ω)) obs v args kwargs w).agrees
    (Routine.runs_call (E.runs (ω := ω')) obs' v args kwargs w') hagrees

/-! ### An evaluator that passes calls on -/

/-- The states of the relay. -/
inductive RelayState where
  | start (level : Nat) (r : Request)
  | again (level : Nat) (v : Value) (rest : List Value)
  | done (outcome : Outcome)

/-- On each level but the lowest the first argument is called with the others, by an evaluator of
the level below: first so that it is observed and whatever comes of it, and then once more unseen.
The evaluations are counted. -/
def relayRoutine : Routine Nat RelayState
  | .start 0 _, s, count => ((s, count + 1), .answer (.ok .none))
  | .start (level + 1) r, s, count =>
    ((s, count + 1),
      match r.args with
      | [] => .answer (.ok .none)
      | v :: rest => .call true v rest .empty (.start level) fun _ => .again level v rest)
  | .again level v rest, s, count => ((s, count), .call false v rest .empty (.start level) .done)
  | .done outcome, s, count => ((s, count), .answer outcome)

/-- The same as an evaluator. -/
def relayEvaluator : Nat → Evaluator Nat ω
  | 0, _, _, w => (.ok .none, { w with host := w.host + 1 })
  | level + 1, obs, r, w =>
    match r.args with
    | [] => (.ok .none, { w with host := w.host + 1 })
    | v :: rest =>
      let (_, w) := v.call (relayEvaluator level) obs rest .empty { w with host := w.host + 1 }
      v.call (relayEvaluator level) .silent rest .empty w

/-- The requests that it makes. -/
def relayRequests : Nat → Observer ω → Request → World Nat ω → List Request
  | 0, _, _, _ => []
  | level + 1, obs, r, w =>
    match r.args with
    | [] => []
    | v :: rest =>
      let w := { w with host := w.host + 1 }
      v.requests (relayRequests level) obs rest .empty w ++
        v.requests (relayRequests level) .silent rest .empty
          (v.call (relayEvaluator level) obs rest .empty w).2

theorem runs_relay (level : Nat) (obs : Observer ω) (r : Request) (w : World Nat ω) :
    relayRoutine.Runs obs (.body (.start level r)) w (relayRequests level obs r w)
      (relayEvaluator level obs r w).1 (relayEvaluator level obs r w).2 := by
  induction level generalizing obs r w with
  | zero => exact .answer rfl
  | succ level ih =>
    obtain ⟨code, globals, locals, args, kwargs, defaults, kwDefaults, closure⟩ := r
    cases args with
    | nil => exact .answer rfl
    | cons v rest =>
      -- put together from the end: the unseen call with its answer, and the seen call before them
      let counted := { w with host := w.host + 1 }
      have hseen := Routine.runs_call ih obs v rest .empty counted
      let after := (v.call (relayEvaluator level) obs rest .empty counted).2
      have hunseen := Routine.runs_call ih .silent v rest .empty after
      let called := v.call (relayEvaluator level) .silent rest .empty after
      have hdone : relayRoutine.Runs obs (.body (.done called.1)) called.2 [] called.1 called.2 :=
        .answer rfl
      have hagain : relayRoutine.Runs obs (.body (.again level v rest)) after _ _ _ :=
        .call rfl hunseen hdone
      -- the answer adds no request to those of the two calls
      rw [List.append_nil] at hagain
      exact .call rfl hseen hagain

/-- The relay does not look at its observer. -/
def relay (level : Nat) : Indifferent Nat where
  κ := RelayState
  routine := relayRoutine
  entry := .start level
  evaluator := relayEvaluator level
  requests := relayRequests level
  runs := runs_relay level

end Indifferent

end Callable
