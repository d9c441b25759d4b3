import Callable.Script.Body
import Callable.Trace.Monitor

/-!
# Running scripts

The commands of a script run one after the other; a command that fails is entered in the log like
any other, and the script goes on.

Every step outside of a monitor has a new evaluator, and a note-taker as the observer to which
observed calls report. A monitor has an evaluator of its own, which counts the requests it has run,
and is the observer of the calls made under it.

All that is printed goes to one console. It is read by those who ask for the state of the monitor,
and it starts empty for a new monitor and for events that are reported to a tracer of their own.

* `Command.run` — the session after a command.
* `Script.run` — the log of a script, in order of completion.
-/

namespace Callable.Script

/-- A monitor with its evaluator. -/
structure MonitorState where
  monitor : Monitor
  /-- Requests run by the evaluator. -/
  evaluations : Nat
  awareness : Awareness

/-- Where a script stands between two commands. -/
structure Session where
  store : Store
  stage : Stage
  console : String
  monitor : Option MonitorState

/-- The session before the first command. -/
def Session.start : Session := ⟨.empty, .start, "", none⟩

/-- How deep calls may be nested: deeper than there is room for in practice. -/
def nestingLimit : Nat := 1000000

/-- The evaluator of a script. -/
def evaluator {ω : Type} (bodies : Table Body) : Awareness → Evaluator Stage ω
  | .observed => evaluate bodies nestingLimit
  | .unobserved => (evaluate bodies nestingLimit).unobserved

/-! ### Operations under a monitor -/

/-- Do something to a monitored world. -/
def onWorld {α : Type} (f : Monitored Stage → α × Monitored Stage) : Run Monitor α := do
  let (a, w) := f (← get)
  set w
  return a

/-- Go on with the value of an operation, or stop with its error. -/
def orError {ω α : Type} : Except RunError α → Run ω α
  | .ok a => return a
  | .error e => throw (.error e)

/-- Perform an operation under a monitor with the given evaluator. -/
def MonitoredAction.perform (ev : Evaluator Stage Monitor) : MonitoredAction → Run Monitor Result
  | .make m => do
    let (code, globals, cells) ← m.eval
    let f ← onWorld fun w =>
      match cells with
      | some cells => Monitored.makeClosure w code globals m.qualname cells
      | none => Monitored.makeFunction w code globals m.qualname
    Run.give (.function f)
  | .getAttr f name => do
    let r ← f.evalFunction
    Run.give (← orError (← onWorld fun w => Monitored.getAttr w r name))
  | .setAttr f name e => do
    let r ← f.evalFunction
    let v ← e.eval
    orError (← onWorld fun w => Monitored.setAttr w r name v)
    Run.done
  | .delAttr f name => do
    let r ← f.evalFunction
    orError (← onWorld fun w => Monitored.delAttr w r name)
    Run.done
  | .bind f e => do
    let r ← f.evalFunction
    let v ← e.eval
    Run.give (← onWorld fun w => Monitored.bind w r v)
  | .call callee route args kwargs => do
    let callee ← callee.eval
    let args ← Expr.evalItems args
    let kwargs ← Expr.evalEntries kwargs
    Run.give (← route.call callee ev Monitor.observer args (.ofList kwargs))

/-! ### Commands -/

namespace Session

/-- The session with a step entered in the log, unless the step made no sense. -/
def record (s : Session) (r : Except Stop Answer) (notes : Array Note) : Option Session :=
  match r with
  | .ok a => some { s with stage := s.stage.record (.ok a) notes }
  | .error (.error e) => some { s with stage := s.stage.record (.error e) notes }
  | .error .malformed => none

/-- The session with the answer of a command that has no effect on values. -/
def answer (s : Session) (a : Answer) : Option Session := s.record (.ok a) #[]

/-- The session after a step outside of any monitor. -/
def step (s : Session) (bodies : Table Body) (st : Step) (awareness : Awareness) : Option Session :=
  let m := st.action.perform (evaluator bodies awareness) noteTaker
  let (r, w) := conclude st.keep m ⟨s.store, { s.stage with evaluations := 0 }, #[], s.console⟩
  record { s with store := w.store, stage := w.host, console := w.console } r w.watch

/-- The session after an operation under a monitor, and the monitor. -/
def under (s : Session) (bodies : Table Body) (m : MonitorState) (a : MonitoredAction)
    (keep : Option String) : Option Session × MonitorState :=
  let (r, w) :=
    conclude keep (a.perform (evaluator bodies m.awareness))
      ⟨s.store, { s.stage with evaluations := m.evaluations }, m.monitor, s.console⟩
  (record { s with store := w.store, stage := w.host, console := w.console } r #[],
    { m with monitor := w.watch, evaluations := w.host.evaluations })

end Session

/-- The session after a command, unless the command makes no sense. -/
def Command.run (bodies : Table Body) (s : Session) : Command → Option Session
  | .step st awareness => s.step bodies st awareness
  | .start tracer awareness =>
    { s with console := "", monitor := some ⟨.start tracer, 0, awareness⟩ }.answer .done
  | .monitored a keep => do
    let m ← s.monitor
    let (s, m) := s.under bodies m a keep
    return { ← s with monitor := some m }
  | .apart callee args kwargs keep =>
    (s.under bodies ⟨.start .silent, 0, .observed⟩ (.call callee .value args kwargs) keep).1
  | .state => do
    let m ← s.monitor
    { s with console := "" }.answer
      (.monitor m.monitor.tracer m.monitor.depth s.console m.evaluations)
  | .reset tracer => do
    let m ← s.monitor
    let fresh := { m with monitor := { m.monitor with tracer }, evaluations := 0 }
    { s with monitor := some fresh }.answer .done
  | .finish => do
    let m ← s.monitor
    { s with monitor := none }.answer (.finished m.monitor.tracer m.evaluations)

end Callable.Script

namespace Callable

/-- The log of a script, unless the script makes no sense. -/
def Script.run (s : Script) : Option (Array Script.Entry) :=
  (s.commands.foldlM (Script.Command.run s.bodies) Script.Session.start).map fun s => s.stage.log

end Callable
