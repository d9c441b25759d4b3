import Callable.Function.Object
import Callable.Store.Heap
import Callable.Table

/-!
# The store

The store holds the contents of all mutable objects, a heap for each sort, and the number of labels
given out to immutable ones.

* `Store.newStr`, `Store.newTuple`, … — make an object; each returns it with the store after.
* `Store.list`, `Store.dict`, `Store.cell`, `Store.function` — the contents of an object.
-/

namespace Callable

/-- The mutable objects of a program. -/
structure Store where
  lists : Heap .list (List Value)
  dicts : Heap .dict (Table Value)
  cells : Heap .cell (Option Value)
  functions : Heap .function FunctionObject
  /-- Labels given out so far. -/
  labels : Nat

namespace Store

/-- The store in which nothing was made yet. -/
def empty : Store := ⟨.empty, .empty, .empty, .empty, 0⟩

instance : Inhabited Store := ⟨empty⟩

/-! ### Reading -/

/-- The items of a list. -/
def list (s : Store) (r : ListRef) : List Value := s.lists.get r

/-- The entries of a dict. -/
def dict (s : Store) (r : DictRef) : Table Value := s.dicts.get r

/-- The contents of a cell, if it is filled. -/
def cell (s : Store) (r : CellRef) : Option Value := s.cells.get r

/-- The fields of a function. -/
def function (s : Store) (r : FunctionRef) : FunctionObject := s.functions.get r

/-! ### Writing -/

def setList (s : Store) (r : ListRef) (items : List Value) : Store :=
  { s with lists := s.lists.set r items }

def setDict (s : Store) (r : DictRef) (t : Table Value) : Store :=
  { s with dicts := s.dicts.set r t }

def setCell (s : Store) (r : CellRef) (v : Option Value) : Store :=
  { s with cells := s.cells.set r v }

def setFunction (s : Store) (r : FunctionRef) (f : FunctionObject) : Store :=
  { s with functions := s.functions.set r f }

/-- Change the fields of a function. -/
def modifyFunction (s : Store) (r : FunctionRef) (g : FunctionObject → FunctionObject) : Store :=
  s.setFunction r (g (s.function r))

/-! ### Making objects -/

/-- A label that no object has yet. -/
def freshLabel (s : Store) : Label × Store :=
  (⟨s.labels⟩, { s with labels := s.labels + 1 })

/-- A new string object. -/
def newStr (s : Store) (text : String) : Str × Store :=
  let (label, s) := s.freshLabel
  (⟨label, text⟩, s)

/-- A new tuple. -/
def newTuple (s : Store) (items : List Value) : Tuple × Store :=
  let (label, s) := s.freshLabel
  (⟨label, items⟩, s)

/-- A new code object. -/
def newCode (s : Store) (name : String) (consts : List Value) (freeVars : List String) :
    Code × Store :=
  let (label, s) := s.freshLabel
  (⟨label, name, consts, freeVars⟩, s)

/-- A new bound method. -/
def newMethod (s : Store) (f : FunctionRef) (receiver : Value) : Method × Store :=
  let (label, s) := s.freshLabel
  (⟨label, f, receiver⟩, s)

/-- A new list. -/
def newList (s : Store) (items : List Value) : ListRef × Store :=
  let (r, lists) := s.lists.alloc items
  (r, { s with lists })

/-- A new dict. -/
def newDict (s : Store) (t : Table Value) : DictRef × Store :=
  let (r, dicts) := s.dicts.alloc t
  (r, { s with dicts })

/-- A new cell. -/
def newCell (s : Store) (v : Option Value) : CellRef × Store :=
  let (r, cells) := s.cells.alloc v
  (r, { s with cells })

/-- A new function with the given fields. -/
def newFunction (s : Store) (f : FunctionObject) : FunctionRef × Store :=
  let (r, functions) := s.functions.alloc f
  (r, { s with functions })

end Store

end Callable
