import Callable.Call.Basic
import Callable.Script.Perform

/-!
# Running bodies

The evaluator of a script. A request is run by the body for the name of its code; without one its
result is a dict of the request's own parts.

A body runs in a frame of its own, with those parts in its registers. Its steps run in order until
one fails that does not catch its failures, and each is entered in the log when it comes to its end.

* `Call.perform` — a call, which holds its callee until it ends.
* `evaluate` — the evaluator for calls nested up to a given depth. Deeper calls make no sense to a
  script.
-/

namespace Callable.Script

variable {ω : Type}

/-! ### Steps -/

/-- Perform a step's action with calls by the given evaluator, under the given observer. -/
abbrev Performer (ω : Type) := Evaluator Stage ω → Observer ω → Run ω Result

/-- Hold a callee while a call is under way. A body that made no sense in the meantime stops the
step, whatever the call has answered. -/
def holding (callee : Value) (call : World Stage ω → Outcome × World Stage ω) : Run ω Value := do
  Run.modifyStage fun t => { t with callees := callee :: t.callees }
  let (outcome, w) := call (← get)
  set w
  Run.modifyStage fun t => { t with callees := t.callees.tail }
  if (← Run.stage).broken then throw .malformed
  match outcome with
  | .ok v => return v
  | .error e => throw (.error e)

/-- Call what a route leads to. -/
def Route.call (route : Route) (callee : Value) (ev : Evaluator Stage ω) (obs : Observer ω)
    (args : List Value) (kwargs : Table Value) : Run ω Value := do
  match route with
  | .value => holding callee (callee.call ev obs args kwargs)
  | .function =>
    let f ← Run.require callee.function?
    holding callee (f.call ev obs args kwargs)
  | .method =>
    let m ← Run.require callee.method?
    holding callee (m.call ev obs args kwargs)

/-- Make a call. -/
def Call.perform (c : Call) : Performer ω := fun ev obs => do
  let callee ← c.callee.eval
  let args ← Expr.evalItems c.args
  let kwargs ← Expr.evalEntries c.kwargs
  Run.give (← c.route.call callee ev (if c.observed then obs else .silent) args (.ofList kwargs))

/-- Perform an action. Only calls need the evaluator and the observer. A tracer that is driven by
itself finds an empty console. -/
def Action.perform : Action → Performer ω
  | .value a => fun _ _ => a.perform
  | .list a => fun _ _ => a.perform
  | .dict a => fun _ _ => a.perform
  | .cell a => fun _ _ => a.perform
  | .function a => fun _ _ => a.perform
  | .method a => fun _ _ => a.perform
  | .fixed a => fun _ _ => a.perform
  | .weak a => fun _ _ => a.perform
  | .error a => fun _ _ => Run.answer a.answer
  | .call c => c.perform
  | .drop name => fun _ _ => do
    let there := ((← Run.stage).register? name).isSome
    Run.modifyStage (·.drop name)
    Run.answer (.truth there)
  | .moduleKey => fun _ _ => Run.answer (.text moduleNameKey)
  | .trace tracer events => fun _ _ => do
    let _ ← Run.readConsole
    let (tracer, printed) := tracer.hearAll events
    Run.answer (.traced tracer printed)

/-- Bring a step to its end: keep the value that it has produced, if any. -/
def conclude (keep : Option String) (m : Run ω Result) : Run ω Answer := do
  let r ← m
  match keep, r.value with
  | some name, some v => Run.modifyStage (·.keep name v)
  | _, _ => pure ()
  return r.answer

/-- Run a step of a body. -/
def BodyStep.run (s : BodyStep) (ev : Evaluator Stage ω) (obs : Observer ω) : Run ω Unit := do
  try
    let a ← conclude s.step.keep (s.step.action.perform ev obs)
    Run.modifyStage (·.record (.ok a) #[])
  catch
    | .error e =>
      Run.modifyStage (·.record (.error e) #[])
      unless s.catches do throw (.error e)
    | .malformed => throw .malformed

/-! ### Bodies -/

/-- The parts of a request, as values under their names. -/
def requestParts (r : Request) : Run ω (List (String × Value)) := do
  let args ← Run.make (·.newTuple r.args)
  let kwargs ← Run.make (·.newDict r.kwargs)
  let closure ←
    match r.closure with
    | some cells => do
      let t ← Run.make (·.newTuple (cells.map .cell))
      pure (Value.tuple t)
    | none => pure .none
  return [("code", .code r.code), ("globals", .dict r.globals), ("locals", .dict r.locals),
    ("args", .tuple args), ("kwargs", .dict kwargs), ("defaults", .ofTuple? r.defaults),
    ("kwdefaults", .ofDict? r.kwDefaults), ("closure", closure)]

/-- Does the body stop before its first step? -/
def EarlyStop.applies (e : EarlyStop) : Run ω Bool := do
  let a ← e.a.eval
  let b ← e.b.eval
  return (← Run.store).agree a b

/-- Come to the end of a body. -/
def Ending.run : Ending → Run ω Value
  | .result e => e.eval
  | .failure e => throw (.error e)

/-- Run a body in the innermost frame. -/
def Body.run (b : Body) (ev : Evaluator Stage ω) (obs : Observer ω) : Run ω Value := do
  match b.early with
  | some e => if ← e.applies then return (← e.result.eval)
  | none => pure ()
  b.steps.forM fun s => s.run ev obs
  b.ending.run

/-- Run a request: count it, and run the body for the name of its code, if there is one. -/
def runRequest (bodies : Table Body) (ev : Evaluator Stage ω) (obs : Observer ω) (r : Request) :
    Run ω Value := do
  Run.modifyStage fun t => { t with evaluations := t.evaluations + 1 }
  let parts ← requestParts r
  match bodies.get? r.code.name with
  | none => return .dict (← Run.make (·.newDict (.ofList parts)))
  | some b =>
    Run.modifyStage fun t => { t with running := .ofList parts :: t.running }
    b.run ev obs

/-- What a computation comes to as the evaluation of a request: afterwards the frames are those that
there were, and if the script makes no sense the stage says so. -/
def toOutcome (m : Run ω Value) (w : World Stage ω) : Outcome × World Stage ω :=
  let running := w.host.running
  let (r, after) := m w
  let host := { after.host with running }
  match r with
  | .ok v => (.ok v, { after with host })
  | .error (.error e) => (.error e, { after with host })
  | .error .malformed =>
    (.error (.internal ""), { after with host := { host with broken := true } })

/-- The evaluator of a script for calls nested up to a given depth. -/
def evaluate (bodies : Table Body) : Nat → Evaluator Stage ω
  | 0 => fun _ _ => toOutcome (throw .malformed)
  | n + 1 => fun obs r => toOutcome (runRequest bodies (evaluate bodies n) obs r)

end Callable.Script
