import Callable.Function.Object
import Callable.Store.Basic

/-!
# Handles

A value that is kept somewhere holds mutable objects: itself, if it is a reference, or the ones that
its immutable parts refer to. These are its handles. An object in turn holds the handles of the
values in its contents, so the handles are the edges of the object graph. A weak reference is no
value and holds nothing.

* `Object` — a mutable object of any sort.
* `Value.handles` — what a value holds.
* `FunctionObject.contents`, `Store.contents` — the values that an object contains, none when it is
  gone.
-/

namespace Callable

/-- A mutable object of any sort. -/
inductive Object where
  | list (r : ListRef)
  | dict (r : DictRef)
  | cell (r : CellRef)
  | function (r : FunctionRef)
  deriving DecidableEq

namespace Value

mutual

/-- The objects that a value holds. -/
def handles : Value → List Object
  | .none | .bool _ | .int _ | .float _ | .str _ => []
  | .tuple ⟨_, xs⟩ => handlesOfItems xs
  | .list r => [.list r]
  | .dict r => [.dict r]
  | .code ⟨_, _, xs, _⟩ => handlesOfItems xs
  | .cell r => [.cell r]
  | .function r => [.function r]
  | .method ⟨_, f, x⟩ => .function f :: handles x

/-- The objects that some values hold. -/
def handlesOfItems : List Value → List Object
  | [] => []
  | x :: xs => handles x ++ handlesOfItems xs

end

theorem handlesOfItems_eq_flatMap (xs : List Value) : handlesOfItems xs = xs.flatMap handles := by
  induction xs with
  | nil => rfl
  | cons x xs ih => simp [handlesOfItems, ih]

end Value

/-- The values that a function contains. -/
def FunctionObject.contents (f : FunctionObject) : List Value :=
  [.code f.code, .dict f.globals, .ofTuple? f.defaults, .ofDict? f.kwDefaults, f.doc, f.moduleName,
    .ofDict? f.dict, .ofDict? f.annotations] ++ (f.closure.getD []).map .cell

namespace Store

/-- Is the object alive? -/
def isAlive (s : Store) : Object → Bool
  | .list r => s.lists.isAlive r
  | .dict r => s.dicts.isAlive r
  | .cell r => s.cells.isAlive r
  | .function r => s.functions.isAlive r

/-- The values that an object contains. -/
def contents (s : Store) : Object → List Value
  | .list r => (s.lists.get? r).getD []
  | .dict r => ((s.dicts.get? r).map Table.values).getD []
  | .cell r => ((s.cells.get? r).join).toList
  | .function r => ((s.functions.get? r).map FunctionObject.contents).getD []

/-- The objects that are alive. -/
def alive (s : Store) : List Object :=
  s.lists.alive.map .list ++ s.dicts.alive.map .dict ++ s.cells.alive.map .cell ++
    s.functions.alive.map .function

theorem mem_alive {s : Store} {o : Object} : o ∈ s.alive ↔ s.isAlive o = true := by
  cases o <;> simp [alive, isAlive, Heap.mem_alive]

end Store

end Callable
