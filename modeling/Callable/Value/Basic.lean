import Callable.Float.Binary64

/-!
# Values

The values of the language: scalars, immutable objects, and mutable objects.

* An immutable object (a string, a tuple, a code object, a bound method) is its contents together
  with a label. Every object made gets a label of its own, so equal contents under different labels
  are different objects, and a copy of a value is the same object.
* A mutable object (a list, a dict, a cell, a function) is a reference; its contents are in the
  store (`Callable.Store`). So values form finite trees, and every cycle of an object graph goes
  through a reference.

* `Value` — the values.
* `Kind` — what a value is, with the name programs see.
-/

namespace Callable

/-! ### References and labels -/

/-- The sorts of object that change over time. -/
inductive Mutable where
  | list
  | dict
  | cell
  | function
  deriving DecidableEq

/-- A reference to a mutable object of one sort. -/
structure Ref (sort : Mutable) where
  index : Nat
  deriving DecidableEq

abbrev ListRef := Ref .list
abbrev DictRef := Ref .dict
abbrev CellRef := Ref .cell
abbrev FunctionRef := Ref .function

/-- What tells an immutable object from all others. -/
structure Label where
  index : Nat
  deriving DecidableEq

/-! ### Immutable objects -/

/-- A string object. -/
@[ext] structure Str where
  label : Label
  text : String
  deriving DecidableEq

/-- A tuple of values of type `V`. -/
@[ext] structure TupleOf (V : Type) where
  label : Label
  items : List V

/-- A code object with constants of type `V`. A function made from it captures one cell for each of
the free variables. -/
@[ext] structure CodeOf (V : Type) where
  label : Label
  name : String
  consts : List V
  freeVars : List String

/-- A function bound to a receiver of type `V`. -/
@[ext] structure MethodOf (V : Type) where
  label : Label
  function : FunctionRef
  receiver : V

/-- The values of the language. -/
inductive Value where
  | none
  | bool (b : Bool)
  | int (n : Int64)
  | float (x : Binary64)
  | str (s : Str)
  | tuple (t : TupleOf Value)
  | list (r : ListRef)
  | dict (r : DictRef)
  | code (c : CodeOf Value)
  | cell (r : CellRef)
  | function (r : FunctionRef)
  | method (m : MethodOf Value)

instance : Inhabited Value := ⟨.none⟩

abbrev Tuple := TupleOf Value
abbrev Code := CodeOf Value
abbrev Method := MethodOf Value

instance : Inhabited Code := ⟨⟨⟨0⟩, "", [], []⟩⟩

/-! ### Kinds -/

/-- The kinds of value. -/
inductive Kind where
  | none
  | bool
  | int
  | float
  | str
  | tuple
  | list
  | dict
  | code
  | cell
  | function
  | method
  deriving DecidableEq

/-- The name of a kind, as programs and error messages show it. -/
def Kind.name : Kind → String
  | .none => "NoneType"
  | .bool => "bool"
  | .int => "int"
  | .float => "float"
  | .str => "str"
  | .tuple => "tuple"
  | .list => "list"
  | .dict => "dict"
  | .code => "code"
  | .cell => "cell"
  | .function => "function"
  | .method => "method"

namespace Value

/-- What the value is. -/
def kind : Value → Kind
  | .none => .none
  | .bool _ => .bool
  | .int _ => .int
  | .float _ => .float
  | .str _ => .str
  | .tuple _ => .tuple
  | .list _ => .list
  | .dict _ => .dict
  | .code _ => .code
  | .cell _ => .cell
  | .function _ => .function
  | .method _ => .method

/-- Functions and bound methods can be called. -/
def isCallable : Value → Bool
  | .function _ | .method _ => true
  | _ => false

/-- Is it the value that stands for absence? -/
def isNone : Value → Bool
  | .none => true
  | _ => false

/-- The text of a string. -/
def text? : Value → Option String
  | .str s => some s.text
  | _ => Option.none

/-- The reference to a list. -/
def list? : Value → Option ListRef
  | .list r => some r
  | _ => Option.none

/-- The reference to a dict. -/
def dict? : Value → Option DictRef
  | .dict r => some r
  | _ => Option.none

/-- The reference to a cell. -/
def cell? : Value → Option CellRef
  | .cell r => some r
  | _ => Option.none

/-- The reference to a function. -/
def function? : Value → Option FunctionRef
  | .function r => some r
  | _ => Option.none

/-- A tuple object. -/
def tuple? : Value → Option Tuple
  | .tuple t => some t
  | _ => Option.none

/-- A code object. -/
def code? : Value → Option Code
  | .code c => some c
  | _ => Option.none

/-- A bound method. -/
def method? : Value → Option Method
  | .method m => some m
  | _ => Option.none

/-- An integer. -/
def int? : Value → Option Int64
  | .int n => some n
  | _ => Option.none

theorem isCallable_iff {v : Value} :
    v.isCallable = true ↔ v.kind = .function ∨ v.kind = .method := by
  cases v <;> simp [isCallable, kind]

theorem isNone_iff {v : Value} : v.isNone = true ↔ v = .none := by
  cases v <;> simp [isNone]

/-- The value of an optional reference, absence being the value for it. -/
def ofDict? : Option DictRef → Value
  | some r => .dict r
  | Option.none => .none

/-- The value of an optional tuple. -/
def ofTuple? : Option Tuple → Value
  | some t => .tuple t
  | Option.none => .none

end Value

end Callable
