import Callable.Call.Basic
import Callable.Error.Exception
import Callable.Function.Attribute
import Callable.Json.Basic
import Callable.Trace.Tracer
import Callable.Value.Snapshot

/-!
# Answers of scripts

What the steps of a script answer, and the log in which the answers are kept. Values are answered as
snapshots, so an answer does not change any more.

* `Answer` — what a step that succeeded answers.
* `Note` — what an observer sees.
* `Entry` — a step that has come to its end.
-/

namespace Callable.Script

/-- The fields of a function, as they are answered. -/
structure Fields where
  codeName : String
  freeVarCount : Nat
  globals : Snapshot
  doc : Snapshot
  moduleName : Snapshot
  name : String
  qualname : String
  defaults : Option Snapshot
  kwDefaults : Option Snapshot
  closure : Option Snapshot
  dict : Option Snapshot
  annotations : Option Snapshot

/-- What a step answers. -/
inductive Answer where
  /-- It is done, and there is nothing to say. -/
  | done
  | truth (b : Bool)
  | truths (a b : Bool)
  | text (s : String)
  | count (n : Nat)
  | names (ns : List String)
  | value (v : Snapshot)
  | optional (v : Option Snapshot)
  /-- The text of a string, or that the value is none. -/
  | textOf (s : Option String)
  /-- The tuple of a sequence, or that the value is none. -/
  | sequence (t : Option Snapshot)
  /-- The number of entries, and whether there are none. -/
  | extent (size : Nat) (isEmpty : Bool)
  /-- The function and the receiver of a bound method. -/
  | parts (function receiver : Snapshot)
  | code (name : String) (consts : List Snapshot) (freeVars : List String)
  | fields (f : Fields)
  | fixed (a : Option Attribute)
  | error (e : RunError)
  | exception (e : Exception)
  | exceptionClass (c : Option ExceptionClass)
  /-- What a JSON text was read as, written again, or that it was refused. -/
  | read (form : Option Json)
  /-- A tracer, and what it has printed. -/
  | traced (t : Tracer) (printed : String)
  /-- The state of a monitor: its tracer, its depth, what has been printed since the console was
  last read, and how many requests its evaluator has run. -/
  | monitor (t : Tracer) (depth : Nat) (printed : String) (evaluations : Nat)
  /-- What is left of a monitor that has ended. -/
  | finished (t : Tracer) (evaluations : Nat)

/-- What an observer is told of a call. -/
inductive Note where
  | enter (qualname : String)
  | exit (ok : Bool)
  deriving DecidableEq

/-- The observer that writes down what it is told, the latest last, and prints nothing. -/
def noteTaker : Observer (Array Note) where
  enter qualname notes := (notes.push (.enter qualname), "")
  exit ok notes := (notes.push (.exit ok), "")

/-- A step that has come to its end: how, inside of how many running bodies, and what its observer
has seen. -/
structure Entry where
  result : Except RunError Answer
  depth : Nat
  notes : Array Note

end Callable.Script
