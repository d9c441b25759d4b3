import Callable.Error.Exception
import Callable.Function.Attribute
import Callable.Trace.Tracer
import Callable.Value.Basic

/-!
# Scripts

A script exercises the library. It is a list of commands, and it says what the functions that it
makes do when they are called: for each name of a code object there may be a body, which is a list
of steps in turn.

Values that a script keeps are in registers. The outermost steps and every run of a body have
registers of their own; a name that begins with a dollar sign is a register of the outermost ones
wherever it is used. Weak references are kept in other registers, which all steps share.

* `Expr` — what values steps work on.
* `Action`, `Step` — what a step does, and where it keeps the value that it produces.
* `Body` — what a function does when it is called.
* `Command`, `Script` — steps, and operations under a monitor.
-/

namespace Callable.Script

/-! ### Expressions -/

/-- Expressions. Except for registers, items and entries, every evaluation makes a new object. -/
inductive Expr where
  | none
  | bool (b : Bool)
  | int (n : Int64)
  | float (x : Binary64)
  | str (text : String)
  | tuple (items : List Expr)
  | list (items : List Expr)
  | dict (entries : List (String × Expr))
  | emptyCell
  | cell (contents : Expr)
  | code (name : String) (consts : List Expr) (freeVars : List String)
  | register (name : String)
  | item (sequence : Expr) (index : Nat)
  | entry (dict : Expr) (key : String)
  | sum (a b : Expr)

/-! ### Actions -/

/-- A container of one element. -/
inductive Wrapper where
  | list
  | tuple
  | dict
  deriving DecidableEq

/-- What can be asked of values and done with any of them. -/
inductive ValueAction where
  /-- The value itself. -/
  | take (e : Expr)
  /-- Wrap the value so many times. -/
  | nest (wrapper : Wrapper) (depth : Nat) (e : Expr)
  | repr (e : Expr)
  | display (e : Expr)
  | kind (e : Expr)
  | isCallable (e : Expr)
  | isNone (e : Expr)
  | text (e : Expr)
  | toTuple (e : Expr)
  | equal (a b : Expr)
  | identical (a b : Expr)

/-- What can be done with lists. -/
inductive ListAction where
  | push (list item : Expr)
  | set (list : Expr) (index : Nat) (item : Expr)
  | pop (list : Expr)

/-- What can be done with dicts. -/
inductive DictAction where
  | get (dict : Expr) (key : String)
  | contains (dict : Expr) (key : String)
  | set (dict : Expr) (key : String) (value : Expr)
  | remove (dict : Expr) (key : String)
  | size (dict : Expr)
  | keys (dict : Expr)
  | copy (dict : Expr)
  | same (a b : Expr)

/-- What can be done with cells. -/
inductive CellAction where
  | get (cell : Expr)
  | set (cell value : Expr)
  | clear (cell : Expr)
  | isEmpty (cell : Expr)
  | contents (cell : Expr)
  | same (a b : Expr)

/-- How a new function is described: an empty qualified name stands for the code's own, and without
cells the function captures nothing. -/
structure Making where
  code : Expr
  globals : Expr
  qualname : String
  cells : Option (List Expr)

/-- What can be done with functions and code objects. -/
inductive FunctionAction where
  | make (m : Making)
  | fields (function : Expr)
  | same (a b : Expr)
  | codeInfo (code : Expr)
  | getAttr (function : Expr) (name : String)
  | setAttr (function : Expr) (name : String) (value : Expr)
  | delAttr (function : Expr) (name : String)
  | setClosure (function : Expr) (cells : Option (List Expr))
  | setDefaults (function value : Expr)
  | setKwDefaults (function value : Expr)
  | setAnnotations (function value : Expr)

/-- What can be done with bound methods. -/
inductive MethodAction where
  /-- Read a function through an instance. -/
  | bind (function receiver : Expr)
  /-- Make a bound method, whatever the receiver. -/
  | make (function receiver : Expr)
  | getAttr (method : Expr) (name : String)
  | parts (method : Expr)

/-- What can be done with the fixed attributes of functions. -/
inductive AttributeAction where
  | names
  | describe (name : String)
  | get (function : Expr) (attr : Attribute)
  | set (function : Expr) (attr : Attribute) (value : Expr)
  | delete (function : Expr) (attr : Attribute)

/-- What can be done with weak references, in the registers for them. -/
inductive WeakAction where
  | make (function : Expr) (name : String)
  | clone (name copy : String)
  | drop (name : String)
  | isAlive (name : String)
  | upgrade (name : String)
  | repr (name : String)
  | count (function : Expr)

/-- What has a form in JSON. -/
inductive Exchanged where
  | exceptionClass
  | exception
  | error
  | event
  deriving DecidableEq

/-- What can be asked of errors, and of the forms in which they are exchanged. -/
inductive ErrorAction where
  | error (e : RunError)
  | equal (a b : RunError)
  | exception (e : Exception)
  | subclass (a b : ExceptionClass)
  | classOf (text : String)
  | read (form : Exchanged) (text : String)

/-- By which operation something is called. -/
inductive Route where
  | value
  | function
  | method
  deriving DecidableEq

/-- A call. An observed one reports to the observer of the place where it is made. -/
structure Call where
  callee : Expr
  args : List Expr
  kwargs : List (String × Expr)
  route : Route
  observed : Bool

/-- What a step does. -/
inductive Action where
  | value (a : ValueAction)
  | list (a : ListAction)
  | dict (a : DictAction)
  | cell (a : CellAction)
  | function (a : FunctionAction)
  | method (a : MethodAction)
  | fixed (a : AttributeAction)
  | weak (a : WeakAction)
  | error (a : ErrorAction)
  | call (c : Call)
  /-- Empty a register. -/
  | drop (register : String)
  /-- The name under which a function looks for its module. -/
  | moduleKey
  /-- Report events to a tracer. -/
  | trace (tracer : Tracer) (events : List Event)

/-! ### Steps and bodies -/

/-- A step: an action, and the register in which to keep the value that it produces, if any. -/
structure Step where
  action : Action
  keep : Option String

/-- A step of a body. One that fails ends the body, unless its failures are caught. -/
structure BodyStep where
  step : Step
  catches : Bool

/-- When a body stops before its first step, and with what result: when two values are equal. -/
structure EarlyStop where
  a : Expr
  b : Expr
  result : Expr

/-- How a body ends. -/
inductive Ending where
  | result (e : Expr)
  | failure (e : RunError)

/-- What a function does when it is called. -/
structure Body where
  early : Option EarlyStop
  steps : List BodyStep
  ending : Ending

/-! ### Commands -/

/-- An operation under a monitor. -/
inductive MonitoredAction where
  | make (m : Making)
  | getAttr (function : Expr) (name : String)
  | setAttr (function : Expr) (name : String) (value : Expr)
  | delAttr (function : Expr) (name : String)
  | bind (function receiver : Expr)
  | call (callee : Expr) (route : Route) (args : List Expr) (kwargs : List (String × Expr))

/-- Whether the evaluator of a call is told the observer. -/
inductive Awareness where
  | observed
  | unobserved
  deriving DecidableEq

/-- A command at the outermost level. -/
inductive Command where
  /-- A step outside of any monitor. -/
  | step (s : Step) (awareness : Awareness)
  /-- Start a monitor with a tracer, in place of the one there was. -/
  | start (tracer : Tracer) (awareness : Awareness)
  /-- An operation under the monitor. -/
  | monitored (a : MonitoredAction) (keep : Option String)
  /-- A call under a monitor of its own, which ends with it. -/
  | apart (callee : Expr) (args : List Expr) (kwargs : List (String × Expr))
      (keep : Option String)
  /-- Ask for the state of the monitor. -/
  | state
  /-- Go on with another tracer. -/
  | reset (tracer : Tracer)
  /-- End the monitor. -/
  | finish

end Callable.Script

namespace Callable

/-- A script: the bodies of functions by the names of their code, and the commands. -/
structure Script where
  bodies : Table Script.Body
  commands : List Script.Command

end Callable
