import Callable.Value.Basic

/-!
# Function objects

What a function is at one moment: the code it runs, the names it sees, and the attributes that
programs may read and change. Everything but the globals can change later.

* `FunctionObject` — the fields.
* `FunctionObject.cellCount` — the number of cells it has captured, none when there is no closure.
-/

namespace Callable

/-- The fields of a function. -/
structure FunctionObject where
  code : Code
  globals : DictRef
  name : String
  /-- The name with the path to the place of definition, which calls are reported under. -/
  qualname : String
  defaults : Option Tuple
  kwDefaults : Option DictRef
  /-- The captured cells in the order of the code's free variables; a closure without cells is
  absent. -/
  closure : Option (List CellRef)
  doc : Value
  moduleName : Value
  /-- Attributes beyond the fixed ones; absent until the first of them is set. -/
  dict : Option DictRef
  annotations : Option DictRef

namespace FunctionObject

/-- The number of captured cells. -/
def cellCount (f : FunctionObject) : Nat := (f.closure.getD []).length

/-- A closure of these cells: absent when there are none. -/
def closureOf (cells : List CellRef) : Option (List CellRef) :=
  if cells.isEmpty then none else some cells

@[simp] theorem closureOf_nil : closureOf [] = none := rfl

@[simp] theorem length_getD_closureOf (cells : List CellRef) :
    ((closureOf cells).getD []).length = cells.length := by
  cases cells <;> rfl

end FunctionObject

/-- The number of variables that the code takes from its closure. -/
def CodeOf.freeVarCount {V : Type} (c : CodeOf V) : Nat := c.freeVars.length

/-- The documentation string of the code: its first constant, if that is a string. -/
def CodeOf.docString (c : Code) : Value :=
  match c.consts.head? with
  | some (.str s) => .str s
  | _ => .none

instance : Inhabited FunctionObject where
  default :=
    { code := default, globals := ⟨0⟩, name := "", qualname := "", defaults := none,
      kwDefaults := none, closure := none, doc := .none, moduleName := .none, dict := none,
      annotations := none }

end Callable
