import Callable.Call.Basic
import Callable.Trace.Tracer

/-!
# Monitored operations

A monitor performs the operations on functions for a program and reports each of them to a tracer.
It changes nothing about them: the result, the requests to the evaluator and the store are those of
the operation itself.

* `Monitor` — a tracer, and the number of monitored calls under way.
* `Monitor.observer` — how the monitor follows calls, also those that an evaluator makes in turn.
* `Monitored.makeFunction`, `Monitored.call`, … — the operations. Reading an attribute is reported
  to nobody.
-/

namespace Callable

/-- A tracer with what it needs to follow nested calls. -/
structure Monitor where
  tracer : Tracer
  /-- Monitored calls under way. -/
  depth : Nat

namespace Monitor

/-- A monitor with a tracer, before the first operation. -/
def start (t : Tracer) : Monitor := ⟨t, 0⟩

/-- The monitor after an event, and what its tracer prints. -/
def hear (m : Monitor) (e : Event) : Monitor × String :=
  let (tracer, printed) := m.tracer.hear e
  ({ m with tracer }, printed)

/-- A call goes one level deeper when it begins, and is reported at that level; its end is reported
at the level to which it returns. -/
def observer : Observer Monitor where
  enter name m :=
    let m := { m with depth := m.depth + 1 }
    m.hear (.called name m.depth)
  exit ok m :=
    let m := { m with depth := m.depth - 1 }
    m.hear (.returned m.depth ok)

end Monitor

/-- A world under a monitor. -/
abbrev Monitored (σ : Type) := World σ Monitor

namespace Monitored

variable {σ : Type}

/-- Report an event. -/
def hear (w : Monitored σ) (e : Event) : Monitored σ := w.report (·.hear e)

/-- Report a function that was just made. -/
def reportMade (w : Monitored σ) (f : FunctionRef) : Monitored σ :=
  let fn := w.store.function f
  w.hear (.made fn.qualname fn.cellCount ((fn.defaults.map (·.items.length)).getD 0))

/-- Make a function. -/
def makeFunction (w : Monitored σ) (code : Code) (globals : DictRef) (qualname : String) :
    FunctionRef × Monitored σ :=
  let (f, store) := w.store.makeFunction code globals qualname
  (f, reportMade { w with store } f)

/-- Make a closure. -/
def makeClosure (w : Monitored σ) (code : Code) (globals : DictRef) (qualname : String)
    (cells : List CellRef) : FunctionRef × Monitored σ :=
  let (f, store) := w.store.makeClosure code globals qualname cells
  (f, reportMade { w with store } f)

/-- Call a function. -/
def call (w : Monitored σ) (ev : Evaluator σ Monitor) (f : FunctionRef) (args : List Value)
    (kwargs : Table Value) : Outcome × Monitored σ :=
  f.call ev Monitor.observer args kwargs w

/-- Call a value. -/
def callValue (w : Monitored σ) (ev : Evaluator σ Monitor) (v : Value) (args : List Value)
    (kwargs : Table Value) : Outcome × Monitored σ :=
  v.call ev Monitor.observer args kwargs w

/-- Read an attribute. -/
def getAttr (w : Monitored σ) (f : FunctionRef) (name : String) : Outcome × Monitored σ :=
  match w.store.getAttr f name with
  | .ok (v, store) => (.ok v, { w with store })
  | .error e => (.error e.toError, w)

/-- Write an attribute. -/
def setAttr (w : Monitored σ) (f : FunctionRef) (name : String) (v : Value) :
    Except RunError Unit × Monitored σ :=
  match w.store.setAttr f name v with
  | .ok store => (.ok (), hear { w with store } (.attrSet name true))
  | .error e => (.error e.toError, w.hear (.attrSet name false))

/-- Delete an attribute. -/
def delAttr (w : Monitored σ) (f : FunctionRef) (name : String) :
    Except RunError Unit × Monitored σ :=
  match w.store.delAttr f name with
  | .ok store => (.ok (), hear { w with store } (.attrDeleted name true))
  | .error e => (.error e.toError, w.hear (.attrDeleted name false))

/-- Read a function through an instance. -/
def bind (w : Monitored σ) (f : FunctionRef) (receiver : Value) : Value × Monitored σ :=
  let (v, store) := w.store.bind f receiver
  (v, hear { w with store } (.bound (v.kind == .method)))

end Monitored

end Callable
