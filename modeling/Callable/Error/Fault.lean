import Callable.Error.Exception
import Callable.Function.Attribute
import Callable.Text.Numeral
import Callable.Value.Basic

/-!
# Faults

The reasons for which operations on values and functions fail of their own accord. Everything else
that can go wrong in a call is raised by the program that runs there and passes through unchanged.

* `Fault.cls`, `Fault.message` — the exception that a fault becomes. Its class is always one of
  `TypeError`, `ValueError` and `AttributeError`, and it always has a message.
-/

namespace Callable

/-- Why an operation fails of its own accord. -/
inductive Fault where
  /-- A value that is neither function nor bound method was called. -/
  | notCallable (kind : Kind)
  /-- A function has no such attribute. -/
  | noAttribute (name : String)
  /-- The attribute cannot be written or deleted. -/
  | readOnly
  /-- The attribute can be written and not deleted. -/
  | notDeletable (attr : Attribute)
  /-- The attribute does not take values of this kind. -/
  | wrongKind (attr : Attribute) (got : Kind)
  /-- The code needs another number of cells than the function has captured. -/
  | codeArity (function : String) (cells freeVars : Nat)
  /-- The closure has another number of cells than the function's code needs. -/
  | closureArity (function : String) (freeVars cells : Nat)
  /-- The cell is empty. -/
  | emptyCell
  deriving DecidableEq

namespace Fault

/-- The class of the exception. -/
def cls : Fault → ExceptionClass
  | notCallable _ | wrongKind .. => .typeError
  | noAttribute _ | readOnly | notDeletable _ => .attributeError
  | codeArity .. | closureArity .. | emptyCell => .valueError

/-- The message of the exception. -/
def message : Fault → String
  | notCallable kind => "'" ++ kind.name ++ "' object is not callable"
  | noAttribute name => "'" ++ Kind.function.name ++ "' object has no attribute '" ++ name ++ "'"
  | readOnly => "readonly attribute"
  | notDeletable attr => "cannot delete attribute '" ++ attr.label ++ "'"
  | wrongKind attr got =>
    attr.label ++ " must be set to " ++ attr.accepts.phrase ++ ", not '" ++ got.name ++ "'"
  | codeArity function cells freeVars =>
    function ++ "() requires a code object with " ++ Text.count cells ++ " free vars, not " ++
      Text.count freeVars
  | closureArity function freeVars cells =>
    function ++ "() requires a closure of " ++ Text.count freeVars ++ " cells, not " ++
      Text.count cells
  | emptyCell => "Cell is empty"

/-- The error that a fault is answered with. -/
def toError (f : Fault) : RunError := .raised ⟨f.cls, some f.message⟩

end Fault

instance : Coe Fault RunError := ⟨Fault.toError⟩

end Callable
