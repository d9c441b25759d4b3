import Callable.Proofs.Run.Course
import Callable.Trace.Monitor

/-!
# Sequences of monitored operations

A program that works under a monitor performs one operation after the other, and between them it may
do other things that the monitor does not see.

* `Monitored.Operation` — the operations; `Operation.perform` performs one, in the words of
  `Monitored`.
* `Monitored.performAll` — the world after a sequence of operations.
-/

namespace Callable

namespace Store

/-- A function that was just made has the fields that it was made with. -/
@[simp] theorem function_newFunction (s : Store) (fn : FunctionObject) :
    (s.newFunction fn).2.function (s.newFunction fn).1 = fn := by
  -- the reference is the one that the heap has just given out
  change (s.functions.alloc fn).2.get (s.functions.alloc fn).1 = fn
  rw [Heap.get, Heap.get?_alloc, if_pos rfl]
  rfl

/-- A new function has no defaults. -/
theorem defaults_makeFunction (s : Store) (code : Code) (globals : DictRef) (qualname : String) :
    ((s.makeFunction code globals qualname).2.function
      (s.makeFunction code globals qualname).1).defaults = none := by
  rw [makeFunction, function_newFunction]
  rfl

theorem defaults_makeClosure (s : Store) (code : Code) (globals : DictRef) (qualname : String)
    (cells : List CellRef) :
    ((s.makeClosure code globals qualname cells).2.function
      (s.makeClosure code globals qualname cells).1).defaults = none := by
  rw [makeClosure, function_newFunction]
  rfl

end Store

namespace Monitored

variable {σ : Type}

/-- What a program does with a monitor at hand. -/
inductive Operation (σ : Type) where
  | makeFunction (code : Code) (globals : DictRef) (qualname : String)
  | makeClosure (code : Code) (globals : DictRef) (qualname : String) (cells : List CellRef)
  | call (f : FunctionRef) (args : List Value) (kwargs : Table Value)
  | callValue (v : Value) (args : List Value) (kwargs : Table Value)
  | getAttr (f : FunctionRef) (name : String)
  | setAttr (f : FunctionRef) (name : String) (v : Value)
  | delAttr (f : FunctionRef) (name : String)
  | bind (f : FunctionRef) (receiver : Value)
  /-- Something that goes past the monitor. -/
  | aside (change : Store → σ → Store × σ)

/-- Perform an operation: what it answers, which is nothing for some of them, and the world after
it. -/
def Operation.perform (ev : Evaluator σ Monitor) :
    Operation σ → Monitored σ → Except RunError (Option Value) × Monitored σ
  | .makeFunction code globals qualname, w =>
    let (f, w) := w.makeFunction code globals qualname
    (.ok (some (.function f)), w)
  | .makeClosure code globals qualname cells, w =>
    let (f, w) := w.makeClosure code globals qualname cells
    (.ok (some (.function f)), w)
  | .call f args kwargs, w =>
    let (r, w) := w.call ev f args kwargs
    (r.map some, w)
  | .callValue v args kwargs, w =>
    let (r, w) := w.callValue ev v args kwargs
    (r.map some, w)
  | .getAttr f name, w =>
    let (r, w) := w.getAttr f name
    (r.map some, w)
  | .setAttr f name v, w =>
    let (r, w) := w.setAttr f name v
    (r.map fun _ => none, w)
  | .delAttr f name, w =>
    let (r, w) := w.delAttr f name
    (r.map fun _ => none, w)
  | .bind f receiver, w =>
    let (v, w) := w.bind f receiver
    (.ok (some v), w)
  | .aside change, w =>
    let (store, host) := change w.store w.host
    (.ok none, { w with store, host })

/-- The world after a sequence of operations. -/
def performAll (ev : Evaluator σ Monitor) : List (Operation σ) → Monitored σ → Monitored σ
  | [], w => w
  | op :: ops, w => performAll ev ops (op.perform ev w).2

end Monitored

end Callable
