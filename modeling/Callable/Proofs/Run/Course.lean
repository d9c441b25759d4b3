import Callable.Call.Basic

/-!
# The course of a run

An evaluator belongs to the program around and may do what it likes, so nothing can be said of a run
unless it is said what evaluators are held to. A `Conduct` says it: what an evaluator may do by
itself between its calls, and which observer it may give to a call.

A run of such evaluators has a course, which is the list of the deeds in it: what was done between
calls, and the calls, each with the deeds of the evaluation that it led to. So a course is a forest
of calls, of any depth and in any order, with everything else that happens strewn in between.

* `Deed` — something that happens in a run.
* `Conduct.quiet` — the conduct by which the notes of the observer are left alone, and a call is
  given the observer that was handed over, or none.
* `Course c obs w ds w'` — from the world `w` to the world `w'` code that was handed the observer
  `obs` does the deeds `ds`, and it and all evaluators that it sets to work hold to the conduct `c`.
* `Evaluator.HoldsTo` — whatever an evaluator is asked to run, it has a course.

A call reaches an evaluator in one way only, through a function and its request: a call of a bound
method is one of its function (`Method.call`), and of a value one of these two or a refusal, which
changes nothing (`Value.call_of_not_isCallable`). So the deeds know calls of functions only.
-/

namespace Callable

variable {σ ω : Type}

/-! ### The parts of a call -/

namespace World

/-- The world in which the evaluation of a call begins: the dict for the locals is made, and the
observer has been told. -/
def entering (w : World σ ω) (f : FunctionRef) (obs : Observer ω) : World σ ω :=
  { w with store := (w.store.newDict .empty).2 }.report (obs.enter (w.store.function f).qualname)

/-- The request that a call hands to its evaluator. -/
def requestTo (w : World σ ω) (f : FunctionRef) (args : List Value) (kwargs : Table Value) :
    Request :=
  (w.store.function f).request (w.store.newDict .empty).1 args kwargs

theorem report_watch (w : World σ ω) (tell : ω → ω × String) :
    (w.report tell).watch = (tell w.watch).1 := rfl

end World

/-- What an evaluator makes of a call, before the observer hears that it has ended. -/
def FunctionRef.evaluation (f : FunctionRef) (ev : Evaluator σ ω) (obs : Observer ω)
    (args : List Value) (kwargs : Table Value) (w : World σ ω) : Outcome × World σ ω :=
  ev obs (w.requestTo f args kwargs) (w.entering f obs)

/-- A call answers what the evaluator answers, and changes no more than the observer's notes. -/
theorem FunctionRef.call_eq (f : FunctionRef) (ev : Evaluator σ ω) (obs : Observer ω)
    (args : List Value) (kwargs : Table Value) (w : World σ ω) :
    f.call ev obs args kwargs w =
      ((f.evaluation ev obs args kwargs w).1,
        (f.evaluation ev obs args kwargs w).2.report
          (obs.exit (f.evaluation ev obs args kwargs w).1.isOk)) := rfl

/-- A call of what cannot be called leaves the world as it is. -/
theorem Value.call_of_not_isCallable {v : Value} (hv : v.isCallable = false) (ev : Evaluator σ ω)
    (obs : Observer ω) (args : List Value) (kwargs : Table Value) (w : World σ ω) :
    v.call ev obs args kwargs w = (.error (Fault.notCallable v.kind).toError, w) := by
  cases v <;> first | rfl | cases hv

/-- The function that a call of a value reaches, and the arguments that get there; a bound method
puts its receiver before the others. -/
def Value.target? (v : Value) (args : List Value) : Option (FunctionRef × List Value) :=
  match v with
  | .function f => some (f, args)
  | .method m => some (m.function, m.receiver :: args)
  | _ => Option.none

/-- What can be called has a target. -/
theorem Value.isSome_target? (v : Value) (args : List Value) :
    (v.target? args).isSome = v.isCallable := by
  cases v <;> rfl

/-- A call of a value is one of its target. -/
theorem Value.call_of_target? {v : Value} {args full : List Value} {f : FunctionRef}
    (h : v.target? args = some (f, full)) (ev : Evaluator σ ω) (obs : Observer ω)
    (kwargs : Table Value) (w : World σ ω) :
    v.call ev obs args kwargs w = f.call ev obs full kwargs w := by
  cases v <;> cases h <;> rfl

/-! ### Deeds and conduct -/

/-- Something that happens in a run. -/
inductive Deed where
  /-- Code around the library has done something of its own, which leaves the store like this. -/
  | own (after : Store)
  /-- A function was called in a store, and the evaluation of the request did some deeds in turn and
  came to an outcome. A call is observed if it was given the observer that the caller was handed. -/
  | call (observed : Bool) (callee : FunctionRef) (before : Store) (request : Request)
      (inner : List Deed) (outcome : Outcome)

/-- **What code around the library is held to.** -/
structure Conduct (σ ω : Type) where
  /-- What it may do by itself between its calls. -/
  own : World σ ω → World σ ω → Prop
  /-- Which observer it may give to a call when it was handed the first one itself; the truth value
  says whether that counts as an observed call. -/
  gives : Observer ω → Bool → Observer ω → Prop

/-- One conduct is stricter than another if it allows only what the other one allows. -/
structure Conduct.Within (c c' : Conduct σ ω) : Prop where
  own : ∀ {w w'}, c.own w w' → c'.own w w'
  gives : ∀ {obs observed obs'}, c.gives obs observed obs' → c'.gives obs observed obs'

/-- **The quiet conduct.** The notes of the observer are left alone, and a call is given the
observer that was handed over, or the silent one. -/
def Conduct.quiet {σ ω : Type} : Conduct σ ω where
  own w w' := w'.watch = w.watch
  gives obs observed obs' := obs' = if observed then obs else .silent

/-- **The course of a run.** Code that was handed an observer goes from one world to another by
deeds of its own and by calls, in any number and order; the evaluator of a call may be any, and
goes its course in turn. -/
inductive Course (c : Conduct σ ω) : Observer ω → World σ ω → List Deed → World σ ω → Prop
  | done (obs : Observer ω) (w : World σ ω) : Course c obs w [] w
  | own {obs : Observer ω} {w w₁ w₂ : World σ ω} {ds : List Deed} (h : c.own w w₁)
      (rest : Course c obs w₁ ds w₂) : Course c obs w (.own w₁.store :: ds) w₂
  | call {obs obs' : Observer ω} {w w₂ : World σ ω} {inner ds : List Deed} {ev : Evaluator σ ω}
      {observed : Bool} {f : FunctionRef} {args : List Value} {kwargs : Table Value}
      (hobs : c.gives obs observed obs')
      (body : Course c obs' (w.entering f obs') inner (f.evaluation ev obs' args kwargs w).2)
      (rest : Course c obs (f.call ev obs' args kwargs w).2 ds w₂) :
      Course c obs w
        (.call observed f w.store (w.requestTo f args kwargs) inner
          (f.evaluation ev obs' args kwargs w).1 :: ds) w₂

/-- Whatever the evaluator is asked to run, it holds to the conduct, and so do all evaluators that
it sets to work. -/
def Evaluator.HoldsTo (ev : Evaluator σ ω) (c : Conduct σ ω) : Prop :=
  ∀ obs r w, ∃ ds, Course c obs w ds (ev obs r w).2

/-! ### Courses put together -/

namespace Course

variable {c c' : Conduct σ ω} {obs obs' : Observer ω} {w w₁ w₂ : World σ ω} {ds ds' : List Deed}

/-- One course after the other. -/
theorem append (h : Course c obs w ds w₁) (h' : Course c obs w₁ ds' w₂) :
    Course c obs w (ds ++ ds') w₂ := by
  -- what comes after goes to the end of the outermost course, never into a call
  induction h with
  | done => exact h'
  | own h _ ih => exact .own h (ih h')
  | call hobs body _ _ ih => exact .call hobs body (ih h')

/-- What holds to a conduct holds to every one that allows more. -/
theorem mono (hc : c.Within c') (h : Course c obs w ds w₁) : Course c' obs w ds w₁ := by
  -- the deeds stay as they are, inside of calls too; only the conduct that allows them changes
  induction h with
  | done obs w => exact .done obs w
  | own h _ ih => exact .own (hc.own h) ih
  | call hobs _ _ ihbody ih => exact .call (hc.gives hobs) ihbody ih

/-- A call of a function by an evaluator that holds to the conduct. -/
theorem of_call {ev : Evaluator σ ω} (hev : ev.HoldsTo c) {observed : Bool}
    (hobs : c.gives obs observed obs') (f : FunctionRef) (args : List Value) (kwargs : Table Value)
    (w : World σ ω) : ∃ ds, Course c obs w ds (f.call ev obs' args kwargs w).2 := by
  -- the evaluation has a course of its own, and the call is one deed around it
  obtain ⟨inner, hinner⟩ := hev obs' (w.requestTo f args kwargs) (w.entering f obs')
  exact ⟨_, .call hobs hinner (.done obs _)⟩

/-- A call of any value by an evaluator that holds to the conduct. -/
theorem of_callValue {ev : Evaluator σ ω} (hev : ev.HoldsTo c) {observed : Bool}
    (hobs : c.gives obs observed obs') (v : Value) (args : List Value) (kwargs : Table Value)
    (w : World σ ω) : ∃ ds, Course c obs w ds (v.call ev obs' args kwargs w).2 := by
  cases hv : v.isCallable with
  | false =>
    -- a refusal happens in the world as it is, so there is nothing to do
    rw [Value.call_of_not_isCallable hv]
    exact ⟨[], .done obs w⟩
  | true =>
    rcases Value.isCallable_iff.1 hv with hkind | hkind
    · cases v <;> cases hkind
      exact of_call hev hobs _ args kwargs w
    · cases v <;> cases hkind
      exact of_call hev hobs _ (_ :: args) kwargs w

end Course

theorem Evaluator.HoldsTo.mono {ev : Evaluator σ ω} {c c' : Conduct σ ω} (hc : c.Within c')
    (h : ev.HoldsTo c) : ev.HoldsTo c' := by
  intro obs r w
  obtain ⟨ds, hds⟩ := h obs r w
  exact ⟨ds, hds.mono hc⟩

end Callable
