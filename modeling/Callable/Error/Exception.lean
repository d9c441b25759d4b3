/-!
# Exceptions and errors

An operation fails with an exception, which programs can tell apart by its class, or with an
internal error, which they cannot.

* `ExceptionClass` — the classes and their hierarchy.
* `Exception` — a class with or without a message.
* `RunError` — what a failed operation answers.
-/

namespace Callable

/-! ### Classes -/

/-- The classes of exception. -/
inductive ExceptionClass where
  | baseException
  | exception
  | arithmeticError
  | zeroDivisionError
  | attributeError
  | typeError
  | valueError
  deriving DecidableEq

namespace ExceptionClass

/-- All classes. -/
def all : List ExceptionClass :=
  [baseException, exception, arithmeticError, zeroDivisionError, attributeError, typeError,
    valueError]

/-- The name of a class. -/
def name : ExceptionClass → String
  | baseException => "BaseException"
  | exception => "Exception"
  | arithmeticError => "ArithmeticError"
  | zeroDivisionError => "ZeroDivisionError"
  | attributeError => "AttributeError"
  | typeError => "TypeError"
  | valueError => "ValueError"

/-- The class of a name. -/
def ofName? (name : String) : Option ExceptionClass := all.find? fun c => c.name == name

/-- What is said of a name that is no class's. -/
def unknownName : String := "Matching variant not found"

theorem mem_all (c : ExceptionClass) : c ∈ all := by cases c <;> simp [all]

theorem ofName?_name (c : ExceptionClass) : ofName? c.name = some c := by
  cases c <;> decide +kernel

theorem name_of_ofName? {name : String} {c : ExceptionClass} (h : ofName? name = some c) :
    c.name = name := by
  simpa using List.find?_some h

/-- The class directly above. -/
def parent? : ExceptionClass → Option ExceptionClass
  | baseException => none
  | exception => some baseException
  | zeroDivisionError => some arithmeticError
  | arithmeticError | attributeError | typeError | valueError => some exception

/-- Does a handler for the second class catch exceptions of the first? -/
def isSubclassOf (c handler : ExceptionClass) : Bool :=
  c == handler ||
    match handler with
    | baseException => true
    | exception => c != baseException
    | arithmeticError => c == zeroDivisionError
    | _ => false

/-- A class is below another one when it is that class or its parent is below it. -/
theorem isSubclassOf_iff (c handler : ExceptionClass) :
    c.isSubclassOf handler = true ↔
      c = handler ∨ ∃ p, c.parent? = some p ∧ p.isSubclassOf handler = true := by
  cases c <;> cases handler <;> simp [isSubclassOf, parent?]

end ExceptionClass

/-! ### Exceptions -/

/-- An exception; no message is not the same as an empty one. -/
structure Exception where
  cls : ExceptionClass
  message : Option String
  deriving DecidableEq

/-- The exception in one line. -/
def Exception.display (e : Exception) : String :=
  match e.message with
  | some m => e.cls.name ++ ": " ++ m
  | none => e.cls.name

/-! ### Errors -/

/-- What a failed operation answers. -/
inductive RunError where
  | internal (message : String)
  | raised (e : Exception)
  deriving DecidableEq

namespace RunError

/-- The message, if there is one. -/
def message? : RunError → Option String
  | internal m => some m
  | raised e => e.message

/-- The error in one line. -/
def display : RunError → String
  | internal m => "internal error: " ++ m
  | raised e => e.display

end RunError

end Callable
