import Callable.Script.Basic
import Callable.Script.Stage

/-!
# Running expressions

A step either answers, or stops, with an error that the library has answered or because it makes no
sense; either way what it has done until then stays done. `Run` is the type of such computations.

* `Run` — computations on the store and the stage that may stop.
* `Expr.eval` — the value of an expression.
-/

namespace Callable.Script

/-- Why a computation does not come to its end. -/
inductive Stop where
  | error (e : RunError)
  /-- The script makes no sense: it names an empty register, or treats a value as something that it
  is not. -/
  | malformed

/-- Computations on the store and the stage that may stop. -/
abbrev Run (ω : Type) := ExceptT Stop (StateM (World Stage ω))

namespace Run

variable {ω α : Type}

/-- The store. -/
def store : Run ω Store := do return (← get).store

/-- The stage. -/
def stage : Run ω Stage := do return (← get).host

/-- Change the stage. -/
def modifyStage (f : Stage → Stage) : Run ω Unit := modify fun w => { w with host := f w.host }

/-- Make something in the store. -/
def make (f : Store → α × Store) : Run ω α :=
  modifyGet fun w =>
    let (a, store) := f w.store
    (a, { w with store })

/-- Change the store. -/
def modifyStore (f : Store → Store) : Run ω Unit := make fun s => ((), f s)

/-- Stop with a fault, or go on. -/
def orFault : Except Fault α → Run ω α
  | .ok a => return a
  | .error e => throw (.error e.toError)

/-- Do something in the store that may fail. -/
def attempt (f : Store → Except Fault (α × Store)) : Run ω α := do
  let (a, store) ← orFault (f (← Run.store))
  modifyStore fun _ => store
  return a

/-- Write something in the store, which may be refused. -/
def attemptWrite (f : Store → Except Fault Store) : Run ω Unit := do
  let store ← orFault (f (← Run.store))
  modifyStore fun _ => store

/-- The console, which is empty once it has been read. -/
def readConsole : Run ω String := modifyGet fun w => (w.console, { w with console := "" })

/-- Find out whether a function is alive still. -/
def settleFor (f : FunctionRef) : Run ω Unit := modify (Script.settleFor f)

/-- What has to be there for the script to make sense. -/
def require : Option α → Run ω α
  | some a => return a
  | none => throw .malformed

end Run

/-! ### Expressions -/

variable {ω : Type}

namespace Expr

mutual

/-- The value of an expression. -/
def eval : Expr → Run ω Value
  | .none => return .none
  | .bool b => return .bool b
  | .int n => return .int n
  | .float x => return .float x
  | .str text => return .str (← Run.make (·.newStr text))
  | .tuple es => do
    let vs ← evalItems es
    return .tuple (← Run.make (·.newTuple vs))
  | .list es => do
    let vs ← evalItems es
    return .list (← Run.make (·.newList vs))
  | .dict es => do
    let vs ← evalEntries es
    return .dict (← Run.make (·.newDict (.ofList vs)))
  | .emptyCell => return .cell (← Run.make (·.newCell Option.none))
  | .cell e => do
    let v ← eval e
    return .cell (← Run.make (·.newCell (some v)))
  | .code name es freeVars => do
    let vs ← evalItems es
    return .code (← Run.make (·.newCode name vs freeVars))
  | .register name => do Run.require ((← Run.stage).register? name)
  | .item e i => do
    match ← eval e with
    | .tuple t => Run.require t.items[i]?
    | .list r => Run.require ((← Run.store).list r)[i]?
    | _ => throw .malformed
  | .entry e key => do
    match ← eval e with
    | .dict r => Run.require (((← Run.store).dict r).get? key)
    | _ => throw .malformed
  | .sum a b => do
    match ← eval a, ← eval b with
    | .int m, .int n => return .int (m + n)
    | _, _ => throw .malformed

/-- The values of some expressions, from the first to the last. -/
def evalItems : List Expr → Run ω (List Value)
  | [] => return []
  | e :: es => do
    let v ← eval e
    let vs ← evalItems es
    return v :: vs

/-- The values of some named expressions, from the first to the last. -/
def evalEntries : List (String × Expr) → Run ω (List (String × Value))
  | [] => return []
  | (name, e) :: es => do
    let v ← eval e
    let vs ← evalEntries es
    return (name, v) :: vs

end

/-- The value of an expression for a tuple. -/
def evalTuple (e : Expr) : Run ω Tuple := do Run.require (← e.eval).tuple?

/-- The value of an expression for a list. -/
def evalList (e : Expr) : Run ω ListRef := do Run.require (← e.eval).list?

/-- The value of an expression for a dict. -/
def evalDict (e : Expr) : Run ω DictRef := do Run.require (← e.eval).dict?

/-- The value of an expression for a cell. -/
def evalCell (e : Expr) : Run ω CellRef := do Run.require (← e.eval).cell?

/-- The value of an expression for a code object. -/
def evalCode (e : Expr) : Run ω Code := do Run.require (← e.eval).code?

/-- The value of an expression for a function. -/
def evalFunction (e : Expr) : Run ω FunctionRef := do Run.require (← e.eval).function?

/-- The value of an expression for a bound method. -/
def evalMethod (e : Expr) : Run ω Method := do Run.require (← e.eval).method?

/-- The values of expressions for cells. -/
def evalCells (es : List Expr) : Run ω (List CellRef) := do
  let vs ← evalItems es
  Run.require (vs.mapM Value.cell?)

end Expr

end Callable.Script
