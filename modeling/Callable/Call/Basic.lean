import Callable.Function.Access

/-!
# Calls

The library does not run code. A call packs what the function holds at that moment into a request,
hands it to an evaluator, and answers what the evaluator answers. The evaluator belongs to the
program around; it may make further calls, and change anything in the store, while it works.

* `Request` — what an evaluator is asked to run.
* `Observer` — what is told of calls as they begin and end. The evaluator is handed the observer of
  the call it runs, to pass on to calls that shall be observed too.
* `World` — the store, the evaluator's own state, what the observer has gathered, and what has been
  printed.
* `FunctionRef.call`, `Method.call`, `Value.call` — the calls. A call that nobody observes is one
  with the silent observer, so there is one definition for both.
-/

namespace Callable

/-- What an evaluator is asked to run: the fields of the function at the moment of the call, the
arguments, and a new dict for the locals. -/
structure Request where
  code : Code
  globals : DictRef
  locals : DictRef
  args : List Value
  kwargs : Table Value
  defaults : Option Tuple
  kwDefaults : Option DictRef
  closure : Option (List CellRef)

/-- The request of a call to a function with these fields. -/
def FunctionObject.request (f : FunctionObject) (locals : DictRef) (args : List Value)
    (kwargs : Table Value) : Request where
  code := f.code
  globals := f.globals
  locals := locals
  args := args
  kwargs := kwargs
  defaults := f.defaults
  kwDefaults := f.kwDefaults
  closure := f.closure

/-! ### Observers and evaluators -/

/-- What happens when an observed call begins, under the function's qualified name, and when it
ends, with a value or with an error: what is gathered then, and the text that is printed. -/
structure Observer (ω : Type) where
  enter : String → ω → ω × String
  exit : Bool → ω → ω × String

/-- The observer that takes no notice. -/
def Observer.silent {ω : Type} : Observer ω := ⟨fun _ w => (w, ""), fun _ w => (w, "")⟩

/-- Everything a call can change: the store, the state `σ` of the evaluator, what has been gathered
by the observer, and the text that has been printed and that nobody has read yet. -/
structure World (σ ω : Type) where
  store : Store
  host : σ
  watch : ω
  console : String

/-- Tell an observer something: what it gathers is kept, and what it prints is added to the
console. -/
def World.report {σ ω : Type} (w : World σ ω) (tell : ω → ω × String) : World σ ω :=
  let (watch, printed) := tell w.watch
  { w with watch, console := w.console ++ printed }

/-- What a call answers. -/
abbrev Outcome := Except RunError Value

/-- Runs a request, with the observer of the call it is for. -/
abbrev Evaluator (σ ω : Type) := Observer ω → Request → World σ ω → Outcome × World σ ω

/-- An evaluator that is not told the observer: the calls it makes are observed by none. -/
def Evaluator.unobserved {σ ω : Type} (ev : Evaluator σ ω) : Evaluator σ ω :=
  fun _ => ev .silent

/-! ### Calls -/

variable {σ ω : Type}

/-- Call a function. -/
def FunctionRef.call (f : FunctionRef) (ev : Evaluator σ ω) (obs : Observer ω) (args : List Value)
    (kwargs : Table Value) (w : World σ ω) : Outcome × World σ ω :=
  let fn := w.store.function f
  let (locals, store) := w.store.newDict .empty
  let entered := { w with store }.report (obs.enter fn.qualname)
  let (r, w) := ev obs (fn.request locals args kwargs) entered
  (r, w.report (obs.exit r.isOk))

/-- Call a bound method: its function, with the receiver before the arguments. -/
def Method.call (m : Method) (ev : Evaluator σ ω) (obs : Observer ω) (args : List Value)
    (kwargs : Table Value) (w : World σ ω) : Outcome × World σ ω :=
  FunctionRef.call m.function ev obs (m.receiver :: args) kwargs w

/-- Call a value. What is neither function nor bound method is refused, without a word to evaluator
or observer. -/
def Value.call (v : Value) (ev : Evaluator σ ω) (obs : Observer ω) (args : List Value)
    (kwargs : Table Value) (w : World σ ω) : Outcome × World σ ω :=
  match v with
  | .function f => FunctionRef.call f ev obs args kwargs w
  | .method m => Method.call m ev obs args kwargs w
  | v => (.error (Fault.notCallable v.kind).toError, w)

end Callable
