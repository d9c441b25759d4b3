import Callable.Proofs.Run.Operation

/-!
# Where errors come from

The library fails for few reasons of its own (`Fault`). Any other error that an operation answers
was returned by an evaluator in the course of it, and has come up to the operation unchanged, level
by level, since nobody on the way has caught it.

* `Happening` — what is done in a run: operations that call nothing, and calls, each with what was
  done in its evaluation.
* `History` — what was done between two worlds. Code around the library may do what it likes by
  itself, and set any evaluators to work, with any observers.
* `Happening.Honest`, `History.honest` — what an operation answers, case by case.
* `Happening.Carried`, `Happening.Originates` — the way of an error, and where it begins.
* `Monitored.history_performAll` — runs of operations have a history.
* `History.errors_forwarded` — the result.
-/

namespace Callable

variable {σ ω : Type}

/-! ### What is done in a run -/

/-- An operation that calls nothing and can fail. -/
inductive Access where
  | getAttr (f : FunctionRef) (name : String)
  | setAttr (f : FunctionRef) (name : String) (v : Value)
  | delAttr (f : FunctionRef) (name : String)
  | setAttribute (f : FunctionRef) (a : Attribute) (v : Value)
  | deleteAttribute (f : FunctionRef) (a : Attribute)
  | setClosure (f : FunctionRef) (closure : Option (List CellRef))
  | getMethodAttr (m : Method) (name : String)
  | cellContents (r : CellRef)

/-- The store after the operation, or its fault. -/
def Access.perform (s : Store) : Access → Except Fault Store
  | .getAttr f name => (s.getAttr f name).map Prod.snd
  | .setAttr f name v => s.setAttr f name v
  | .delAttr f name => s.delAttr f name
  | .setAttribute f a v => s.setAttribute f a v
  | .deleteAttribute f a => s.deleteAttribute f a
  | .setClosure f closure => s.setClosure f closure
  | .getMethodAttr m name => (s.getMethodAttr m name).map Prod.snd
  | .cellContents r => (s.cellContents r).map fun _ => s

/-- The operation answers this error, or none, and leaves this world. If it fails, the store is left
as it was. -/
def Access.ComesTo (a : Access) (w : World σ ω) (error : Option RunError) (after : World σ ω) :
    Prop :=
  match a.perform w.store with
  | .ok store => error = none ∧ after.store = store
  | .error fault => error = some fault.toError ∧ after.store = w.store

/-- The error in an answer. -/
def errorIn? {α : Type} : Except RunError α → Option RunError
  | .ok _ => none
  | .error e => some e

/-- **Something that is done in a run.** -/
inductive Happening where
  /-- Code around the library has done something of its own. -/
  | own
  /-- An operation that calls nothing, with its error if it has failed. -/
  | access (a : Access) (error : Option RunError)
  /-- A call: what was done in the evaluation, what the evaluator has returned if the call has got to
  it, and what the call has answered. -/
  | call (callee : Value) (inner : List Happening) (returned : Option Outcome) (answer : Outcome)

namespace Happening

/-- The error that was answered. -/
def error? : Happening → Option RunError
  | own => none
  | access _ error => error
  | call _ _ _ answer => errorIn? answer

/-- What was done inside of it. -/
def inner : Happening → List Happening
  | call _ inner _ _ => inner
  | _ => []

/-- What the evaluator has returned. -/
def returned? : Happening → Option Outcome
  | call _ _ returned _ => returned
  | _ => none

/-- It is one of these, or is inside of one, at whatever depth. -/
inductive Within (h : Happening) : List Happening → Prop
  | here {hs : List Happening} (hmem : h ∈ hs) : Within h hs
  | deeper {outer : Happening} {hs : List Happening} (hmem : outer ∈ hs)
      (hin : Within h outer.inner) : Within h hs

/-- An evaluator has returned the error in the course of it, at whatever depth. -/
inductive Returned (e : RunError) : Happening → Prop
  | here {h : Happening} (hreturned : h.returned? = some (.error e)) : Returned e h
  | deeper {h outer : Happening} (hmem : h ∈ outer.inner) (hin : Returned e h) : Returned e outer

/-- **The way of an error**, from the second of two happenings up to the first: on each level above
the second the evaluator has returned it, and so has not caught it. -/
inductive Carried (e : RunError) : Happening → Happening → Prop
  | here (h : Happening) : Carried e h h
  | up {h outer deep : Happening} (hmem : h ∈ outer.inner)
      (hreturned : outer.returned? = some (.error e)) (below : Carried e h deep) :
      Carried e outer deep

/-- **The origin of an error.** It is a fault of an operation that has not got to an evaluator, or an
evaluator has returned it and nothing that it had done has answered it. -/
structure Originates (e : RunError) (h : Happening) : Prop where
  answered : h.error? = some e
  origin : (h.returned? = none ∧ ∃ fault : Fault, e = fault.toError) ∨
    (h.returned? = some (.error e) ∧ ∀ h' ∈ h.inner, h'.error? ≠ some e)

/-- **What operations answer**, case by case: nothing but faults of their own and what evaluators
return. -/
inductive Honest : Happening → Prop
  | own : Honest .own
  | done (a : Access) : Honest (.access a none)
  | failed (a : Access) (fault : Fault) : Honest (.access a (some fault.toError))
  | refused (callee : Value) :
      Honest (.call callee [] none (.error (Fault.notCallable callee.kind).toError))
  | called (callee : Value) (inner : List Happening) (outcome : Outcome) :
      Honest (.call callee inner (some outcome) outcome)

end Happening

open Happening

/-- **What was done between two worlds.** Evaluators and observers of the calls may be any, and so may
be what code around the library does by itself. -/
inductive History {σ ω : Type} : World σ ω → List Happening → World σ ω → Prop
  | done (w : World σ ω) : History w [] w
  | own {w w₁ w₂ : World σ ω} {hs : List Happening} (rest : History w₁ hs w₂) :
      History w (.own :: hs) w₂
  | access {w w₁ w₂ : World σ ω} {a : Access} {error : Option RunError} {hs : List Happening}
      (h : a.ComesTo w error w₁) (rest : History w₁ hs w₂) : History w (.access a error :: hs) w₂
  | refused {w w₂ : World σ ω} {callee : Value} {ev : Evaluator σ ω} {obs : Observer ω}
      {args : List Value} {kwargs : Table Value} {hs : List Happening}
      (htarget : callee.target? args = none)
      (rest : History (callee.call ev obs args kwargs w).2 hs w₂) :
      History w (.call callee [] none (callee.call ev obs args kwargs w).1 :: hs) w₂
  | called {w w₂ : World σ ω} {callee : Value} {ev : Evaluator σ ω} {obs : Observer ω}
      {args full : List Value} {kwargs : Table Value} {f : FunctionRef} {inner hs : List Happening}
      (htarget : callee.target? args = some (f, full))
      (body : History (w.entering f obs) inner (f.evaluation ev obs full kwargs w).2)
      (rest : History (callee.call ev obs args kwargs w).2 hs w₂) :
      History w (.call callee inner (some (f.evaluation ev obs full kwargs w).1)
        (callee.call ev obs args kwargs w).1 :: hs) w₂

/-! ### What the answers are -/

namespace Happening

variable {h outer deep : Happening} {e : RunError}

/-- An error is returned by the evaluator, or it is a fault. -/
theorem Honest.error_cases (hh : h.Honest) (he : h.error? = some e) :
    h.returned? = some (.error e) ∨ (h.returned? = none ∧ ∃ fault : Fault, e = fault.toError) := by
  cases hh with
  | own => cases he
  | done => cases he
  | failed a fault =>
    cases he
    exact .inr ⟨rfl, fault, rfl⟩
  | refused callee =>
    cases he
    exact .inr ⟨rfl, _, rfl⟩
  | called callee inner outcome =>
    -- the answer is what the evaluator has returned, with nothing done to it
    cases outcome with
    | ok v => cases he
    | error e' =>
      cases he
      exact .inl rfl

/-- What has not got to an evaluator is the origin of its error itself. -/
theorem Honest.exists_origin (hh : h.Honest) (he : h.error? = some e)
    (hreturned : h.returned? = none) :
    ∃ deep, Carried e h deep ∧ Originates e deep := by
  rcases hh.error_cases he with hback | hfault
  · rw [hreturned] at hback
    cases hback
  · exact ⟨h, .here h, he, .inl hfault⟩

/-- What the evaluator returns is answered. -/
theorem Honest.error_of_returned (hh : h.Honest) (hreturned : h.returned? = some (.error e)) :
    h.error? = some e := by
  cases hh with
  | called callee inner outcome =>
    cases hreturned
    rfl
  | _ => cases hreturned

end Happening

namespace History

variable {w w' : World σ ω} {hs : List Happening} {h outer deep : Happening} {e : RunError}

/-- Operations answer nothing else. -/
theorem honest (hist : History w hs w') (hmem : h ∈ hs) : h.Honest := by
  -- along the history: it is the first thing that was done, or one of the others
  induction hist with
  | done => cases hmem
  | own _ ih =>
    rcases List.mem_cons.1 hmem with rfl | hmem
    · exact .own
    · exact ih hmem
  | @access w _ _ a _ _ hcomes _ ih =>
    rcases List.mem_cons.1 hmem with rfl | hmem
    · -- either the store is replaced and there is no error, or the error is the fault
      rw [Access.ComesTo] at hcomes
      split at hcomes
      · rw [hcomes.1]
        exact .done a
      · rw [hcomes.1]
        exact .failed a _
    · exact ih hmem
  | @refused w w₂ callee ev obs args kwargs hs htarget _ ih =>
    rcases List.mem_cons.1 hmem with rfl | hmem
    · -- without a target the value cannot be called, and the refusal names its kind
      have hcall : callee.isCallable = false := by
        rw [← callee.isSome_target? args, htarget]
        rfl
      rw [Value.call_of_not_isCallable hcall]
      exact .refused callee
    · exact ih hmem
  | called htarget _ _ _ ih =>
    rcases List.mem_cons.1 hmem with rfl | hmem
    · rw [Value.call_of_target? htarget, FunctionRef.call_eq]
      exact .called _ _ _
    · exact ih hmem

/-- What was done inside of something has a history too. -/
theorem exists_inner (hist : History w hs w') (hmem : h ∈ hs) :
    ∃ w₁ w₂ : World σ ω, History w₁ h.inner w₂ := by
  induction hist with
  | done => cases hmem
  | own _ ih | access _ _ ih | refused _ _ ih =>
    rcases List.mem_cons.1 hmem with rfl | hmem
    · exact ⟨w, w, .done w⟩
    · exact ih hmem
  | called _ body _ _ ih =>
    rcases List.mem_cons.1 hmem with rfl | hmem
    · exact ⟨_, _, body⟩
    · exact ih hmem

/-- So has everything at whatever depth. -/
theorem exists_mem_of_within (hist : History w hs w') (hin : h.Within hs) :
    ∃ (w₁ w₂ : World σ ω) (hs₁ : List Happening), History w₁ hs₁ w₂ ∧ h ∈ hs₁ := by
  -- on the depth; the history of what is inside begins and ends in other worlds
  induction hin generalizing w w' with
  | here hmem => exact ⟨w, w', _, hist, hmem⟩
  | deeper hmem _ ih =>
    obtain ⟨w₁, w₂, hinner⟩ := hist.exists_inner hmem
    exact ih hinner

/-- **Every error has an origin**, from which it has come up unchanged. -/
theorem exists_origin (hist : History w hs w') (hmem : h ∈ hs) (he : h.error? = some e) :
    ∃ deep, Carried e h deep ∧ Originates e deep := by
  have hhonest := hist.honest hmem
  -- by induction on the history, and with it on the histories of the evaluations in it
  induction hist generalizing h with
  | done => cases hmem
  | own _ ih | access _ _ ih | refused _ _ ih =>
    rcases List.mem_cons.1 hmem with rfl | hmem
    · exact hhonest.exists_origin he rfl
    · exact ih hmem he hhonest
  | @called w w₂ callee ev obs args full kwargs f inner hs htarget body _ ihbody ih =>
    rcases List.mem_cons.1 hmem with rfl | hmem
    · -- the call has got to the evaluator, so its error is no fault of its own
      have hreturned : (f.evaluation ev obs full kwargs w).1 = .error e := by
        rcases hhonest.error_cases he with hback | hfault
        · exact Option.some.inj hback
        · cases hfault.1
      -- either the evaluator was given the error by something that it did, or it is its own
      by_cases hinner : ∃ h' ∈ inner, h'.error? = some e
      · obtain ⟨h', hmem', he'⟩ := hinner
        obtain ⟨deep, hbelow, horigin⟩ := ihbody hmem' he' (body.honest hmem')
        exact ⟨deep, .up hmem' (congrArg some hreturned) hbelow, horigin⟩
      · refine ⟨_, .here _, he, .inr ⟨congrArg some hreturned, ?_⟩⟩
        intro h' hmem' he'
        exact hinner ⟨h', hmem', he'⟩
    · exact ih hmem he hhonest

end History

/-! ### Errors that the library does not raise -/

namespace RunError

/-- Not an exception of one of three classes with a message. -/
def IsForeign : RunError → Prop
  | internal _ => True
  | raised ⟨cls, message⟩ =>
    (cls ≠ .typeError ∧ cls ≠ .valueError ∧ cls ≠ .attributeError) ∨ message = none

end RunError

/-- A fault becomes an exception of one of three classes, with a message. -/
theorem Fault.not_isForeign_toError (fault : Fault) : ¬fault.toError.IsForeign := by
  rintro (⟨htype, hvalue, hattribute⟩ | hmessage)
  · cases fault <;> first | exact htype rfl | exact hvalue rfl | exact hattribute rfl
  · cases hmessage

/-! ### Operations of a program -/

/-- An account of evaluations: what an evaluator does in each. -/
abbrev Accounting (σ ω : Type) := Observer ω → Request → World σ ω → List Happening

/-- The account is true of the evaluator. -/
def Accounting.IsOf (account : Accounting σ ω) (ev : Evaluator σ ω) : Prop :=
  ∀ obs r w, History w (account obs r w) (ev obs r w).2

/-- Every evaluator has an account, in which it has done everything by itself. -/
theorem Accounting.isOf_own (ev : Evaluator σ ω) : Accounting.IsOf (fun _ _ _ => [.own]) ev :=
  fun _ _ _ => .own (.done _)

/-- A call, with the account of its evaluation. -/
def Value.happening (v : Value) (ev : Evaluator σ ω) (account : Accounting σ ω) (obs : Observer ω)
    (args : List Value) (kwargs : Table Value) (w : World σ ω) : Happening :=
  match v.target? args with
  | Option.none => .call v [] Option.none (v.call ev obs args kwargs w).1
  | some (f, full) =>
    .call v (account obs (w.requestTo f full kwargs) (w.entering f obs))
      (some (f.evaluation ev obs full kwargs w).1) (v.call ev obs args kwargs w).1

theorem Value.error?_happening (v : Value) (ev : Evaluator σ ω) (account : Accounting σ ω)
    (obs : Observer ω) (args : List Value) (kwargs : Table Value) (w : World σ ω) :
    (v.happening ev account obs args kwargs w).error? =
      errorIn? (v.call ev obs args kwargs w).1 := by
  rw [happening]
  cases v.target? args <;> rfl

/-- A call after which something more is done. -/
theorem Accounting.IsOf.history_call {account : Accounting σ ω} {ev : Evaluator σ ω}
    (haccount : account.IsOf ev) {v : Value} {obs : Observer ω} {args : List Value}
    {kwargs : Table Value} {w w' : World σ ω} {hs : List Happening}
    (rest : History (v.call ev obs args kwargs w).2 hs w') :
    History w (v.happening ev account obs args kwargs w :: hs) w' := by
  rw [Value.happening]
  cases htarget : v.target? args with
  | none => exact .refused htarget rest
  | some target => exact .called htarget (haccount _ _ _) rest

namespace Monitored

/-- What is done by an operation. -/
def Operation.happening (ev : Evaluator σ Monitor) (account : Accounting σ Monitor) :
    Operation σ → Monitored σ → Happening
  | .call f args kwargs, w =>
    (Value.function f).happening ev account Monitor.observer args kwargs w
  | .callValue v args kwargs, w => v.happening ev account Monitor.observer args kwargs w
  | .getAttr f name, w => .access (.getAttr f name) (errorIn? (w.getAttr f name).1)
  | .setAttr f name v, w => .access (.setAttr f name v) (errorIn? (w.setAttr f name v).1)
  | .delAttr f name, w => .access (.delAttr f name) (errorIn? (w.delAttr f name).1)
  | .makeFunction .., _ | .makeClosure .., _ | .bind .., _ | .aside .., _ => .own

/-- It has the error that the operation answers. -/
theorem Operation.error?_happening (ev : Evaluator σ Monitor) (account : Accounting σ Monitor)
    (op : Operation σ) (w : Monitored σ) :
    (op.happening ev account w).error? = errorIn? (op.perform ev w).1 := by
  -- what an operation answers beside its error makes no difference
  have mapped {α β : Type} (g : α → β) (r : Except RunError α) :
      errorIn? (r.map g) = errorIn? r := by
    cases r <;> rfl
  cases op with
  | call f args kwargs =>
    rw [happening, Value.error?_happening]
    exact (mapped some _).symm
  | callValue v args kwargs =>
    rw [happening, Value.error?_happening]
    exact (mapped some _).symm
  | getAttr f name => exact (mapped some _).symm
  | setAttr f name v => exact (mapped _ _).symm
  | delAttr f name => exact (mapped _ _).symm
  | _ => rfl

/-- An operation after which something more is done. -/
theorem Operation.history {ev : Evaluator σ Monitor} {account : Accounting σ Monitor}
    (haccount : account.IsOf ev) (op : Operation σ) {w w' : Monitored σ} {hs : List Happening}
    (rest : History (op.perform ev w).2 hs w') :
    History w (op.happening ev account w :: hs) w' := by
  cases op with
  | call f args kwargs =>
    -- a monitor calls with itself as observer, and the rest is the call of the value
    have hcall : History ((Value.function f).call ev Monitor.observer args kwargs w).2 hs w' := rest
    exact haccount.history_call hcall
  | callValue v args kwargs =>
    have hcall : History (v.call ev Monitor.observer args kwargs w).2 hs w' := rest
    exact haccount.history_call hcall
  | getAttr f name =>
    refine .access ?_ rest
    rw [perform, Monitored.getAttr, Access.ComesTo, Access.perform]
    cases w.store.getAttr f name <;> exact ⟨rfl, rfl⟩
  | setAttr f name v =>
    -- the monitor hears of it in either case, which makes no difference to the store
    refine .access ?_ rest
    rw [perform, Monitored.setAttr, Access.ComesTo, Access.perform]
    cases w.store.setAttr f name v <;> exact ⟨rfl, rfl⟩
  | delAttr f name =>
    refine .access ?_ rest
    rw [perform, Monitored.delAttr, Access.ComesTo, Access.perform]
    cases w.store.delAttr f name <;> exact ⟨rfl, rfl⟩
  | _ => exact .own rest

/-- What is done by operations one after the other. -/
def happenings (ev : Evaluator σ Monitor) (account : Accounting σ Monitor) :
    List (Operation σ) → Monitored σ → List Happening
  | [], _ => []
  | op :: ops, w => op.happening ev account w :: happenings ev account ops (op.perform ev w).2

/-- The errors that they answer. -/
def errors (ev : Evaluator σ Monitor) : List (Operation σ) → Monitored σ → List (Option RunError)
  | [], _ => []
  | op :: ops, w => errorIn? (op.perform ev w).1 :: errors ev ops (op.perform ev w).2

/-- **Runs of operations have a history**, in which the errors are those that the operations
answer. -/
theorem history_performAll {ev : Evaluator σ Monitor} {account : Accounting σ Monitor}
    (haccount : account.IsOf ev) (ops : List (Operation σ)) (w : Monitored σ) :
    History w (happenings ev account ops w) (performAll ev ops w) ∧
      (happenings ev account ops w).map Happening.error? = errors ev ops w := by
  induction ops generalizing w with
  | nil => exact ⟨.done w, rfl⟩
  | cons op ops ih =>
    obtain ⟨hrest, herrors⟩ := ih (op.perform ev w).2
    refine ⟨op.history haccount hrest, ?_⟩
    rw [happenings, List.map_cons, errors, herrors, op.error?_happening]

end Monitored

/-! ### The result -/

namespace Happening

/-- **The library forwards errors.** -/
structure Forwards (h : Happening) : Prop where
  /-- An error was returned by an evaluator in the course of it, or the library has raised it. Then it
  is a `TypeError`, a `ValueError` or an `AttributeError` with a message. -/
  returnedOrFault (e : RunError) (he : h.error? = some e) : h.Returned e ∨
    ∃ cls message, e = .raised ⟨cls, some message⟩ ∧
      (cls = .typeError ∨ cls = .valueError ∨ cls = .attributeError)
  /-- Any other error comes from an evaluator. -/
  foreign (e : RunError) (he : h.error? = some e) (hforeign : e.IsForeign) : h.Returned e
  /-- An error that no evaluator on the way has caught is answered as it was below. -/
  carried (e : RunError) (deep : Happening) (hway : Carried e h deep) (he : deep.error? = some e) :
    h.error? = some e
  /-- And so every error has come up from its origin. -/
  origin (e : RunError) (he : h.error? = some e) : ∃ deep, Carried e h deep ∧ Originates e deep

end Happening

theorem History.forwards {w w' : World σ ω} {hs : List Happening} {h : Happening}
    (hist : History w hs w') (hin : h.Within hs) : h.Forwards := by
  obtain ⟨w₁, w₂, hs₁, hist₁, hmem⟩ := hist.exists_mem_of_within hin
  have hhonest := hist₁.honest hmem
  constructor
  case returnedOrFault =>
    intro e he
    rcases hhonest.error_cases he with hback | ⟨-, fault, rfl⟩
    · exact .inl (.here hback)
    · refine .inr ⟨_, _, rfl, ?_⟩
      cases fault <;> simp [Fault.cls]
  case foreign =>
    intro e he hforeign
    rcases hhonest.error_cases he with hback | ⟨-, fault, rfl⟩
    · exact .here hback
    · exact absurd hforeign fault.not_isForeign_toError
  case carried =>
    intro e deep hway he
    cases hway with
    | here => exact he
    -- only the topmost level matters: its evaluator has returned the error, and that is answered
    | up _ hreturned _ => exact hhonest.error_of_returned hreturned
  case origin =>
    intro e he
    exact hist₁.exists_origin hmem he

/-- **Errors are forwarded.** Whatever evaluators and other code do, of each thing that is done in a
run, at whatever depth, it holds that its error was returned by an evaluator in the course of it, or
is a `TypeError`, a `ValueError` or an `AttributeError` with a message; that an error of another sort
was returned by an evaluator; and that errors come up from their origin unchanged, and from no
other. In particular it holds of operations that a program performs one after the other, however the
evaluations are accounted for. -/
theorem History.errors_forwarded :
    (∀ {σ ω : Type} {w w' : World σ ω} {hs : List Happening}, History w hs w' →
      ∀ {h : Happening}, h.Within hs → h.Forwards) ∧
    ∀ {σ : Type} {ev : Evaluator σ Monitor} {account : Accounting σ Monitor}, account.IsOf ev →
      ∀ (ops : List (Monitored.Operation σ)) (w : Monitored σ),
      History w (Monitored.happenings ev account ops w) (Monitored.performAll ev ops w) ∧
        (Monitored.happenings ev account ops w).map Happening.error? =
          Monitored.errors ev ops w :=
  ⟨fun hist => hist.forwards, fun haccount ops w => Monitored.history_performAll haccount ops w⟩

/-! ### An error from two levels below -/

section Lost

/-- Whatever it is asked to run, it fails, and with no exception. -/
def losing : Evaluator Unit Monitor := fun _ _ w => (.error (.internal "lost"), w)

/-- It has its first argument called by the other one, and does not catch what comes of it. -/
def passing : Evaluator Unit Monitor := fun obs r w =>
  match r.args with
  | v :: rest => v.call losing obs rest .empty w
  | [] => (.ok .none, w)

/-- What it does. -/
def passingAccount : Accounting Unit Monitor := fun obs r w =>
  match r.args with
  | v :: rest => [v.happening losing (fun _ _ _ => [.own]) obs rest .empty w]
  | [] => []

theorem isOf_passingAccount : passingAccount.IsOf passing := by
  intro obs r w
  rw [passingAccount, passing]
  cases r.args with
  | nil => exact .done w
  | cons v rest => exact (Accounting.isOf_own losing).history_call (.done _)

/-- There is a function. -/
def lostWorld : Monitored Unit where
  store := (Store.empty.makeFunction ⟨⟨0⟩, "f", [], []⟩ ⟨0⟩ "").2
  host := ()
  watch := .start .silent
  console := ""

/-- A method of the function, bound to absence. -/
def lowerMethod : Value := .method ⟨⟨2⟩, ⟨0⟩, .none⟩

/-- A method is called whose receiver is the other one, and an attribute is read that is not there. -/
def lostOperations : List (Monitored.Operation Unit) :=
  [.callValue (.method ⟨⟨1⟩, ⟨0⟩, lowerMethod⟩) [] .empty, .getAttr ⟨0⟩ "x"]

/-- The error of the inner evaluator comes up through both methods. The other error is a fault. -/
theorem History.errors_forwarded_lost :
    Monitored.errors passing lostOperations lostWorld =
        [some (.internal "lost"),
          some (.raised ⟨.attributeError, some "'function' object has no attribute 'x'"⟩)] ∧
      ∃ h ∈ Monitored.happenings passing passingAccount lostOperations lostWorld,
        h.Returned (.internal "lost") ∧ h.error? = some (.internal "lost") ∧
          ∃ deep ∈ h.inner, deep.Originates (.internal "lost") := by
  obtain ⟨hist, herrors⟩ := errors_forwarded.2 isOf_passingAccount lostOperations lostWorld
  let call : Monitored.Operation Unit := .callValue (.method ⟨⟨1⟩, ⟨0⟩, lowerMethod⟩) [] .empty
  let upper := call.happening passing passingAccount lostWorld
  have hmem : upper ∈ Monitored.happenings passing passingAccount lostOperations lostWorld :=
    List.mem_cons_self
  have hforwards := errors_forwarded.1 hist (.here hmem)
  -- inside of the call there is the other one, and the evaluator of that has done nothing but fail
  obtain ⟨lower, hlower⟩ : ∃ lower, upper.inner = [lower] := ⟨_, rfl⟩
  have hin : lower ∈ upper.inner := by
    rw [hlower]
    exact List.mem_singleton_self lower
  have horigin : lower.Originates (.internal "lost") := by
    cases hlower
    refine ⟨rfl, .inr ⟨rfl, ?_⟩⟩
    intro h' hmem'
    cases List.mem_singleton.1 hmem'
    nofun
  have hway : Happening.Carried (.internal "lost") upper lower := .up hin rfl (.here lower)
  have herror := hforwards.carried _ lower hway horigin.answered
  exact ⟨herrors.symm.trans (by decide +kernel), upper, hmem, hforwards.foreign _ herror trivial,
    herror, lower, hin, horigin⟩

end Lost

end Callable
